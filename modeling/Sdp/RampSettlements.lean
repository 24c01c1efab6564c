import Sdp.Code.RampSettlements
import Sdp.Lib.Run

/-!
# Ramp transfers under racing settlements

Every update of a transfer is guarded, so its status only moves forward. What a handler announces is
decided apart from its write.
-/

open Sdp.Lib

namespace Sdp.Ramps

open Payments (PaymentTransferStatus PaymentTransferType)

/-! ## Later rows -/

/-- `pending < awaiting_payment < settling <` the terminal statuses. -/
def rank : PaymentTransferStatus → Nat
  | .awaitingPayment => 1
  | .settling => 2
  | .completed | .failed | .expired | .canceled => 3
  | _ => 0

def Forward (status status' : PaymentTransferStatus) : Prop := status' = status ∨ rank status < rank status'

def Terminal (r : PaymentTransferRow) : Prop := r.status ∈ terminalRampTransferStatuses

theorem mem_terminal_iff {status : PaymentTransferStatus} : status ∈ terminalRampTransferStatuses ↔ rank status = 3 := by
  cases status <;> decide

/-- What the row of a transfer may become. -/
structure Follows (r r' : PaymentTransferRow) : Prop where
  organizationId : r'.organizationId = r.organizationId
  projectId : r'.projectId = r.projectId
  counterpartyId : r'.counterpartyId = r.counterpartyId
  provider : r'.provider = r.provider
  type : r'.type = r.type
  forward : Forward r.status r'.status
  terminal : Terminal r → r' = r
  /-- Amounts and provider data are only written with a terminal status. -/
  open_ : ¬ Terminal r' → r'.fiatAmount = r.fiatAmount ∧ r'.providerData = r.providerData

theorem Follows.of_terminal {r r' : PaymentTransferRow} (h : Follows r r') (hr' : ¬ Terminal r') : ¬ Terminal r :=
  fun hr => hr' (h.terminal hr ▸ hr)

instance : Std.Refl Follows where
  refl _ := ⟨rfl, rfl, rfl, rfl, rfl, .inl rfl, fun _ => rfl, fun _ => ⟨rfl, rfl⟩⟩

instance : IsTrans PaymentTransferRow Follows where
  trans r₁ r₂ r₃ h h' := by
    refine ⟨h'.organizationId.trans h.organizationId, h'.projectId.trans h.projectId,
      h'.counterpartyId.trans h.counterpartyId, h'.provider.trans h.provider, h'.type.trans h.type, ?_, ?_, ?_⟩
    · rcases h.forward with heq | hlt
      · rw [Forward, ← heq]
        exact h'.forward
      · rcases h'.forward with heq' | hlt'
        · rw [Forward, heq']
          exact .inr hlt
        · exact .inr (hlt.trans hlt')
    · intro hterminal
      obtain rfl := h.terminal hterminal
      exact h'.terminal hterminal
    · intro hopen
      obtain ⟨hfiat, hdata⟩ := h'.open_ hopen
      obtain ⟨hfiat₂, hdata₂⟩ := h.open_ (h'.of_terminal hopen)
      exact ⟨hfiat.trans hfiat₂, hdata.trans hdata₂⟩

theorem follows_set {u : TransferUpdate} {r : PaymentTransferRow} (hopen : ¬ Terminal r)
    (hforward : Forward r.status u.toStatus)
    (hkeeps : u.toStatus ∉ terminalRampTransferStatuses → u.fiatAmount = none ∧ u.mural = none ∧ u.settlement = none) :
    Follows r (u.set r) := by
  refine ⟨rfl, rfl, rfl, rfl, rfl, hforward, fun hterminal => absurd hterminal hopen, fun hterminal => ?_⟩
  obtain ⟨hfiat, hmural, hsettlement⟩ := hkeeps hterminal
  simp [TransferUpdate.set, hfiat, hmural, hsettlement]

theorem follows_terminal {u : TransferUpdate} {r : PaymentTransferRow} (hopen : ¬ Terminal r)
    (hu : u.toStatus ∈ terminalRampTransferStatuses) : Follows r (u.set r) := by
  refine follows_set hopen (.inr ?_) fun h => absurd hu h
  rw [mem_terminal_iff] at hu
  rw [Terminal, mem_terminal_iff] at hopen
  have hle : rank r.status ≤ 3 := by
    generalize r.status = status
    cases status <;> decide
  omega

theorem not_terminal_of_live {r : PaymentTransferRow} (h : r.status ∈ liveStatuses) : ¬ Terminal r := by
  unfold Terminal
  generalize r.status = status at h
  revert h
  cases status <;> decide

theorem guarded_iff {transfer r : PaymentTransferRow} {fromStatuses : List PaymentTransferStatus} :
    guarded transfer fromStatuses r = true ↔
      r.organizationId = transfer.organizationId ∧ r.projectId = transfer.projectId ∧ r.status ∈ fromStatuses := by
  simp [guarded]

/-! ## Every update is guarded -/

theorem follows_settlement {kind : RampSettlementKind} {transfer r : PaymentTransferRow} {now : Nat}
    (h : guarded transfer kind.sources r = true) : Follows r ((settlementUpdate kind transfer now).set r) := by
  have hsource := (guarded_iff.mp h).2.2
  cases kind with
  | awaitingPayment =>
    refine follows_set ?_ ?_ fun _ => ⟨rfl, rfl, rfl⟩
    · exact not_terminal_of_live (by simp_all [RampSettlementKind.sources, liveStatuses])
    · simp only [RampSettlementKind.sources, List.mem_singleton] at hsource
      rw [hsource]
      exact .inr Nat.zero_lt_one
  | settling =>
    refine follows_set ?_ ?_ fun _ => ⟨rfl, rfl, rfl⟩
    · refine not_terminal_of_live ?_
      simp only [RampSettlementKind.sources, List.mem_cons, List.not_mem_nil, or_false] at hsource
      rcases hsource with heq | heq <;> rw [heq] <;> decide
    · simp only [RampSettlementKind.sources, List.mem_cons, List.not_mem_nil, or_false] at hsource
      rcases hsource with heq | heq <;> rw [heq]
      · exact .inr Nat.zero_lt_two
      · exact .inr Nat.one_lt_two
  | settled receivedAmount settlement =>
    exact follows_terminal (not_terminal_of_live hsource) (by decide : PaymentTransferStatus.completed ∈ _)
  | failed error settlement =>
    exact follows_terminal (not_terminal_of_live hsource) (by decide : PaymentTransferStatus.failed ∈ _)
  | expired error settlement =>
    exact follows_terminal (not_terminal_of_live hsource) (by decide : PaymentTransferStatus.expired ∈ _)

theorem follows_payin {p : BvnkPayin} {transfer r : PaymentTransferRow} {now : Nat}
    (h : guarded transfer liveStatuses r = true) : Follows r ((System.payinUpdate p now).set r) :=
  follows_terminal (not_terminal_of_live (guarded_iff.mp h).2.2) (by decide : PaymentTransferStatus.completed ∈ _)

theorem follows_credit {e : MuralCredit} {transfer r : PaymentTransferRow} {now : Nat}
    (h : guarded transfer [.awaitingPayment] r = true) : Follows r ((System.creditUpdate e transfer now).set r) := by
  have hsource := List.mem_singleton.mp (guarded_iff.mp h).2.2
  refine follows_terminal (not_terminal_of_live ?_) (by decide : PaymentTransferStatus.completed ∈ _)
  rw [hsource]
  decide

theorem follows_channel {e : BvnkChannelTransaction} {r : PaymentTransferRow} {now : Nat}
    (h : System.channelGuard r = true) : Follows r ((System.channelUpdate e now).set r) := by
  have hopen : ¬ Terminal r := by
    simp only [System.channelGuard, decide_eq_true_eq] at h
    exact h.2.2
  cases hconfirmed : e.confirmed with
  | true =>
    refine follows_terminal hopen ?_
    simp [System.channelUpdate, hconfirmed, terminalRampTransferStatuses]
  | false =>
    refine follows_set hopen ?_ fun _ => ⟨by simp [System.channelUpdate, hconfirmed], rfl, rfl⟩
    have hstatus : (System.channelUpdate e now).toStatus = .settling := by simp [System.channelUpdate, hconfirmed]
    rw [hstatus]
    unfold Terminal at hopen
    generalize r.status = status at hopen
    revert hopen
    unfold Forward
    cases status <;> decide

theorem follows_cancel {provider : RampProviderId} {reference organizationId projectId : String} {now : Nat}
    {r : PaymentTransferRow} (h : System.cancelGuard provider reference organizationId projectId r = true) :
    Follows r (TransferUpdate.set { toStatus := .canceled, updatedAt := now } r) := by
  simp only [System.cancelGuard, decide_eq_true_eq] at h
  refine follows_terminal (not_terminal_of_live ?_) (by decide : PaymentTransferStatus.canceled ∈ _)
  have hcancelable := h.2.2.2.2
  generalize r.status = status at hcancelable
  revert hcancelable
  cases status <;> decide

/-! ## Every step -/

/-- What the next statement of a handler may do. -/
inductive Next (s : System) (n : Nat) : System → Prop
  /-- The handler returns or throws, and has written nothing. -/
  | quits (hn : (∀ event, s.handlers n ≠ .announcing event) ∧ s.handlers n ≠ .done) : Next s n (s.setHandler n .done)
  | reads {provider : RampProviderId} {reference : String} {kind : RampSettlementKind} {transfer : PaymentTransferRow}
      (hn : s.handlers n = .received (.settlement (.event provider reference kind))) :
      Next s n (s.setHandler n (.applying kind transfer))
  | finds {delivery : Delivery} {payin : Payin} {counterparty : CounterpartyRow}
      (hn : s.handlers n = .received delivery) (hcounterparty : s.counterparty? payin = some counterparty) :
      Next s n (s.setHandler n (.found payin counterparty))
  | isUnused {e : MuralCredit} {counterparty : CounterpartyRow} (hn : s.handlers n = .found (.mural e) counterparty)
      (hunused : isReplay s.transfers e.deliveryId = false) : Next s n (s.setHandler n (.unused e counterparty))
  | matchesOne {payin : Payin} {counterparty : CounterpartyRow} {id : String}
      (hn : s.handlers n = .found payin counterparty ∨
        ∃ e, payin = .mural e ∧ s.handlers n = .unused e counterparty)
      (hsole : sole (matchingIds s.transfers (payinMatches s.numeric counterparty payin)) = some id) :
      Next s n (s.setHandler n (.matched payin counterparty id))
  | loads {payin : Payin} {counterparty : CounterpartyRow} {id : String} {transfer : PaymentTransferRow}
      (hn : s.handlers n = .matched payin counterparty id)
      (hget : getTransferById s.transfers id counterparty.organizationId counterparty.projectId = some transfer) :
      Next s n (s.setHandler n (.loaded payin transfer))
  | applies {kind : RampSettlementKind} {transfer : PaymentTransferRow} (hn : s.handlers n = .applying kind transfer) :
      Next s n (s.applySettlement n kind transfer)
  | channels {e : BvnkChannelTransaction} {id : String} (hn : s.handlers n = .received (.channel e))
      (hid : truthy e.transferId = some id) :
      Next s n ((s.write n id System.channelGuard (System.channelUpdate e s.now)).setHandler n .done)
  | completes {p : BvnkPayin} {transfer : PaymentTransferRow} (hn : s.handlers n = .loaded (.bvnk p) transfer) :
      Next s n (s.completePayin n p transfer)
  | claims {e : MuralCredit} {transfer claimed : PaymentTransferRow} (hn : s.handlers n = .loaded (.mural e) transfer)
      (hclaimed : s.returning transfer.id (guarded transfer [.awaitingPayment]) (System.creditUpdate e transfer s.now) =
        some claimed)
      (hfree : System.deliveryTaken s.transfers transfer.id e.deliveryId = false) :
      Next s n (s.claimCredit n e transfer claimed)
  | announces {event : RampSettled} (hn : s.handlers n = .announcing event) :
      Next s n ({ s with announced := (n, event) :: s.announced }.setHandler n .done)

theorem next_cases {s t : System} {n : Nat} (h : s.next n = some t) : Next s n t := by
  have hquits {handler : Handler} (hn : s.handlers n = handler) (hannouncing : ∀ event, handler ≠ .announcing event)
      (hdone : handler ≠ .done) : Next s n (s.setHandler n .done) :=
    .quits ⟨fun event => by rw [hn]; exact hannouncing event, by rw [hn]; exact hdone⟩
  have hmatch {payin : Payin} {counterparty : CounterpartyRow}
      (hn : s.handlers n = .found payin counterparty ∨ ∃ e, payin = .mural e ∧ s.handlers n = .unused e counterparty) :
      Next s n (s.matchPayin n payin counterparty) := by
    unfold System.matchPayin
    split
    · rcases hn with hn | ⟨e, -, hn⟩ <;> exact hquits hn (by simp) (by simp)
    · next id hsole => exact .matchesOne hn hsole
  unfold System.next at h
  split at h
  · cases h
  · cases h
  · next hn =>
    cases h
    exact hquits hn (by simp) (by simp)
  · next hn =>
    split at h
    · cases h
      exact hquits hn (by simp) (by simp)
    · split at h <;> cases h
      · exact .reads hn
      · exact hquits hn (by simp) (by simp)
  · next hn =>
    split at h <;> cases h
    · exact hquits hn (by simp) (by simp)
    · next hcounterparty => exact .finds hn hcounterparty
  · next hn =>
    split at h <;> cases h
    · exact hquits hn (by simp) (by simp)
    · next hid => exact .channels hn hid
  · next hn =>
    split at h <;> cases h
    · exact hquits hn (by simp) (by simp)
    · next hcounterparty => exact .finds hn hcounterparty
  · next hn =>
    cases h
    exact .applies hn
  · next hn =>
    cases h
    exact hmatch (.inl hn)
  · next hn =>
    split at h <;> cases h
    · exact hquits hn (by simp) (by simp)
    · next hreplay => exact .isUnused hn (by simpa using hreplay)
  · next e counterparty hn =>
    cases h
    exact hmatch (.inr ⟨e, rfl, hn⟩)
  · next hn =>
    split at h <;> cases h
    · exact hquits hn (by simp) (by simp)
    · next hget => exact .loads hn hget
  · next hn =>
    cases h
    exact .completes hn
  · next e transfer hn =>
    cases h
    unfold System.completeCredit
    split
    · exact hquits hn (by simp) (by simp)
    · next claimed hclaimed =>
      split
      · exact hquits hn (by simp) (by simp)
      · next hfree => exact .claims hn hclaimed (by simpa using hfree)
  · next hn =>
    cases h
    exact .announces hn

theorem evolves_set {t : TransferTable} {id : String} {guard : PaymentTransferRow → Bool} {u : TransferUpdate}
    (h : ∀ r, guard r = true → Follows r (u.set r)) : Table.Evolves Follows t (t.update id guard u.set fun _ => rfl) := by
  have hset (r : PaymentTransferRow) : (u.set r).id = r.id := rfl
  exact Table.evolves_update hset fun r _ => h r

theorem evolves_next {s t : System} {n : Nat} (h : Next s n t) : Table.Evolves Follows s.transfers t.transfers := by
  cases h with
  | applies hn =>
    unfold System.applySettlement
    split <;> exact evolves_set fun r => follows_settlement
  | channels hn hid => exact evolves_set fun r => follows_channel
  | completes hn => exact evolves_set fun r => follows_payin
  | claims hn hclaimed hfree =>
    unfold System.claimCredit
    split <;> exact evolves_set fun r => follows_credit
  | _ => exact .refl

theorem evolves_step {s t : System} {l : Step} (h : s.step l = some t) :
    Table.Evolves Follows s.transfers t.transfers := by
  cases l with
  | elapse ms =>
    cases h
    exact .refl
  | deliver n delivery =>
    unfold System.step at h
    dsimp only at h
    split at h <;> cases h
    exact .refl
  | next n => exact evolves_next (next_cases h)
  | createOnrampQuote q =>
    unfold System.step at h
    dsimp only at h
    split at h <;> cases h
    exact Table.evolves_insertNew _
  | cancelRampTransfer provider reference organizationId projectId =>
    unfold System.step at h
    dsimp only at h
    split at h
    · cases h
    · next transfer _ =>
      cases h
      exact evolves_set fun r => follows_cancel

/-- Whatever runs meanwhile, a row is only followed by later ones. -/
theorem follows_reachable {s t : System} (h : Reachable System.step (· = s) anyStep t) {id : String}
    {r : PaymentTransferRow} (hr : s.transfers.find? id = some r) :
    ∃ r', t.transfers.find? id = some r' ∧ Follows r r' := by
  induction h with
  | start hstart =>
    subst hstart
    exact ⟨r, hr, Std.Refl.refl r⟩
  | step _ _ hstep ih =>
    obtain ⟨r₁, hr₁, h₁⟩ := ih
    obtain ⟨r₂, hr₂, h₂⟩ := evolves_step hstep id r₁ hr₁
    exact ⟨r₂, hr₂, IsTrans.trans r r₁ r₂ h₁ h₂⟩

/-! ## Announcements -/

/-- What the handler has in a log. -/
def logOf {α : Type} (n : Nat) (log : List (Nat × α)) : List α := (log.filter (·.1 = n)).map (·.2)

section Log

variable {α : Type} {n m : Nat} {log : List (Nat × α)}

theorem mem_logOf {a : α} : a ∈ logOf n log ↔ (n, a) ∈ log := by
  simp [logOf]

theorem logOf_append (log' : List (Nat × α)) : logOf n (log' ++ log) = logOf n log' ++ logOf n log := by
  simp [logOf]

theorem logOf_map_self (l : List α) : logOf n (l.map (n, ·)) = l := by
  simp [logOf, List.filter_map, Function.comp_def]

theorem logOf_map_of_ne (h : m ≠ n) (l : List α) : logOf m (l.map (n, ·)) = [] := by
  simp [logOf, List.filter_map, Function.comp_def, Ne.symm h]

end Log

/-- The announcement is of the row. -/
structure Announces (event : RampSettled) (row : PaymentTransferRow) : Prop where
  transferId : event.transferId = row.id
  organizationId : event.organizationId = row.organizationId
  projectId : row.projectId = some event.projectId

/-- The rows that a handler has completed and the events that it has announced so far. -/
def HandlerOk (moved : List PaymentTransferRow) (announced : List RampSettled) : Handler → Prop
  | .announcing event => announced = [] ∧ ∃ row, moved = [row] ∧ Announces event row
  | .done =>
    announced = [] ∧ (∀ row ∈ moved, truthy row.projectId = none) ∨
      ∃ row event, moved = [row] ∧ announced = [event] ∧ Announces event row
  | _ => moved = [] ∧ announced = []

def Inv (s : System) : Prop := ∀ n, HandlerOk (logOf n s.completed) (logOf n s.announced) (s.handlers n)

section Handlers

variable {s : System} (h : Inv s) {n : Nat}
include h

theorem logs_empty {handler : Handler} (hn : s.handlers n = handler) (hannouncing : ∀ event, handler ≠ .announcing event)
    (hdone : handler ≠ .done) : logOf n s.completed = [] ∧ logOf n s.announced = [] := by
  have hok := h n
  rw [hn] at hok
  cases handler with
  | announcing event => exact absurd rfl (hannouncing event)
  | done => exact absurd rfl hdone
  | _ => exact hok

theorem inv_setHandler {handler : Handler}
    (hok : HandlerOk (logOf n s.completed) (logOf n s.announced) handler) : Inv (s.setHandler n handler) := by
  intro m
  show HandlerOk _ _ (Function.update s.handlers n handler m)
  by_cases hm : m = n
  · subst hm
    rw [Function.update_self]
    exact hok
  · rw [Function.update_of_ne hm]
    exact h m

theorem inv_write {id : String} {guard : PaymentTransferRow → Bool} {u : TransferUpdate} {payins : List PayinSettlement}
    {handler : Handler}
    (hlogs : logOf n s.completed = [] ∧ logOf n s.announced = [])
    (hok : HandlerOk (if u.toStatus = .completed then (s.returning id guard u).toList else []) [] handler) :
    Inv (({ s with payins }.write n id guard u).setHandler n handler) := by
  have hlog (m : Nat) : logOf m ({ s with payins }.write n id guard u).completed =
      (if m = n ∧ u.toStatus = .completed then (s.returning id guard u).toList else []) ++ logOf m s.completed := by
    show logOf m (if u.toStatus = .completed then _ else _) = _
    by_cases hu : u.toStatus = .completed
    · rw [if_pos hu, logOf_append]
      by_cases hm : m = n
      · rw [if_pos ⟨hm, hu⟩, hm, logOf_map_self]
        rfl
      · rw [if_neg (fun hand => hm hand.1), logOf_map_of_ne hm]
    · rw [if_neg hu, if_neg (fun hand => hu hand.2)]
      rfl
  intro m
  show HandlerOk (logOf m ({ s with payins }.write n id guard u).completed) (logOf m s.announced)
    (Function.update s.handlers n handler m)
  rw [hlog]
  by_cases hm : m = n
  · subst hm
    rw [Function.update_self, hlogs.1, hlogs.2, List.append_nil]
    simpa using hok
  · rw [Function.update_of_ne hm, if_neg (fun hand => hm hand.1), List.nil_append]
    exact h m

end Handlers

theorem returned_of_mem {s : System} {id : String} {guard : PaymentTransferRow → Bool} {u : TransferUpdate}
    {row : PaymentTransferRow} (h : row ∈ if u.toStatus = .completed then (s.returning id guard u).toList else []) :
    u.toStatus = .completed ∧ s.returning id guard u = some row := by
  split at h
  · next hu => exact ⟨hu, Option.mem_toList.mp h⟩
  · cases h

theorem announces_returned {s : System} {transfer row : PaymentTransferRow} {fromStatuses : List PaymentTransferStatus}
    {u : TransferUpdate} {projectId : String} {amount : Option String}
    (hrow : s.returning transfer.id (guarded transfer fromStatuses) u = some row)
    (hproject : truthy transfer.projectId = some projectId) : Announces (rampSettled transfer projectId amount) row := by
  obtain ⟨r, hr, hguard, rfl⟩ := Table.returning_eq_some.mp hrow
  obtain ⟨horganization, hsame, -⟩ := guarded_iff.mp hguard
  refine ⟨(Table.key_of_find? hr).symm, horganization.symm, ?_⟩
  rw [truthy, Option.filter_eq_some_iff] at hproject
  exact hsame.trans hproject.1

theorem returned_projectId {s : System} {transfer row : PaymentTransferRow} {fromStatuses : List PaymentTransferStatus}
    {u : TransferUpdate} (hrow : s.returning transfer.id (guarded transfer fromStatuses) u = some row) :
    row.projectId = transfer.projectId := by
  obtain ⟨r, -, hguard, rfl⟩ := Table.returning_eq_some.mp hrow
  exact (guarded_iff.mp hguard).2.1

/-- A handler that announces finds the transfer open when it writes, and one that never announces completes no transfer
of a project. -/
def announcesItsWrite (s : System) : Step → Prop
  | .next n =>
    match s.handlers n with
    | .applying (.settled _ _) transfer =>
      truthy transfer.projectId ≠ none → s.transfers.matches? transfer.id (guarded transfer liveStatuses) = true
    | .loaded (.bvnk _) transfer =>
      s.transfers.matches? transfer.id (guarded transfer liveStatuses) = true → truthy transfer.projectId = none
    | .received (.channel e) =>
      e.confirmed = true → ∀ id r, truthy e.transferId = some id → s.transfers.find? id = some r →
        System.channelGuard r = true → truthy r.projectId = none
    | _ => True
  | _ => True

section Next

variable {s t : System} (h : Inv s) {n : Nat}
include h

theorem inv_applySettlement {kind : RampSettlementKind} {transfer : PaymentTransferRow}
    (hn : s.handlers n = .applying kind transfer) (hok : announcesItsWrite s (.next n)) :
    Inv (s.applySettlement n kind transfer) := by
  have hlogs := logs_empty h hn (by simp) (by simp)
  simp only [announcesItsWrite, hn] at hok
  cases kind with
  | settled receivedAmount settlement =>
    simp only [System.applySettlement]
    split
    · next projectId hproject =>
      -- The transfer is still open, so the update finds it.
      obtain ⟨r, hr, hguard⟩ := Table.matches?_iff.mp (hok (by rw [hproject]; simp))
      have hrow : s.returning transfer.id (guarded transfer liveStatuses)
          (settlementUpdate (.settled receivedAmount settlement) transfer s.now) = some _ :=
        Table.returning_eq_some.mpr ⟨r, hr, hguard, rfl⟩
      exact inv_write h hlogs
        ⟨rfl, _, (if_pos rfl).trans (congrArg Option.toList hrow), announces_returned hrow hproject⟩
    · next hproject =>
      refine inv_write h hlogs (.inl ⟨rfl, fun row hrow => ?_⟩)
      rw [returned_projectId (returned_of_mem hrow).2]
      exact Option.eq_none_iff_forall_ne_some.mpr fun projectId => hproject receivedAmount settlement projectId rfl
  | _ => exact inv_write h hlogs (.inl ⟨rfl, fun row hrow => by cases hrow⟩)

theorem inv_channel {e : BvnkChannelTransaction} {id : String} (hn : s.handlers n = .received (.channel e))
    (hid : truthy e.transferId = some id) (hok : announcesItsWrite s (.next n)) :
    Inv ((s.write n id System.channelGuard (System.channelUpdate e s.now)).setHandler n .done) := by
  simp only [announcesItsWrite, hn] at hok
  refine inv_write h (logs_empty h hn (by simp) (by simp)) (.inl ⟨rfl, fun row hrow => ?_⟩)
  obtain ⟨hcompleted, hreturned⟩ := returned_of_mem hrow
  obtain ⟨r, hr, hguard, rfl⟩ := Table.returning_eq_some.mp hreturned
  refine hok ?_ id r hid hr hguard
  by_contra hdetected
  simp [System.channelUpdate, hdetected] at hcompleted

theorem inv_completePayin {p : BvnkPayin} {transfer : PaymentTransferRow}
    (hn : s.handlers n = .loaded (.bvnk p) transfer) (hok : announcesItsWrite s (.next n)) :
    Inv (s.completePayin n p transfer) := by
  simp only [announcesItsWrite, hn] at hok
  refine inv_write h (logs_empty h hn (by simp) (by simp)) (.inl ⟨rfl, fun row hrow => ?_⟩)
  obtain ⟨-, hreturned⟩ := returned_of_mem hrow
  obtain ⟨r, hr, hguard, -⟩ := Table.returning_eq_some.mp hreturned
  rw [returned_projectId hreturned]
  exact hok (Table.matches?_iff.mpr ⟨r, hr, hguard⟩)

theorem inv_claimCredit {e : MuralCredit} {transfer claimed : PaymentTransferRow}
    (hn : s.handlers n = .loaded (.mural e) transfer)
    (hclaimed : s.returning transfer.id (guarded transfer [.awaitingPayment]) (System.creditUpdate e transfer s.now) =
      some claimed) : Inv (s.claimCredit n e transfer claimed) := by
  have hlogs := logs_empty h hn (by simp) (by simp)
  unfold System.claimCredit
  split
  · next hproject =>
    refine inv_write h hlogs (.inl ⟨rfl, fun row hrow => ?_⟩)
    rw [returned_projectId (returned_of_mem hrow).2]
    exact hproject
  · next projectId hproject =>
    exact inv_write h hlogs
      ⟨rfl, claimed, (if_pos rfl).trans (congrArg Option.toList hclaimed), announces_returned hclaimed hproject⟩

theorem inv_next (hok : announcesItsWrite s (.next n)) (hnext : Next s n t) : Inv t := by
  have hquiet {handler handler' : Handler} (hn : s.handlers n = handler) (hannouncing : ∀ event, handler ≠ .announcing event)
      (hdone : handler ≠ .done) (hok : HandlerOk [] [] handler') : Inv (s.setHandler n handler') := by
    obtain ⟨hmoved, hannounced⟩ := logs_empty h hn hannouncing hdone
    refine inv_setHandler h ?_
    rw [hmoved, hannounced]
    exact hok
  cases hnext with
  | quits hn => exact hquiet rfl hn.1 hn.2 (.inl ⟨rfl, by simp⟩)
  | reads hn => exact hquiet hn (by simp) (by simp) ⟨rfl, rfl⟩
  | finds hn hcounterparty => exact hquiet hn (by simp) (by simp) ⟨rfl, rfl⟩
  | isUnused hn hunused => exact hquiet hn (by simp) (by simp) ⟨rfl, rfl⟩
  | matchesOne hn hsole =>
    rcases hn with hn | ⟨e, -, hn⟩
    · exact hquiet hn (by simp) (by simp) ⟨rfl, rfl⟩
    · exact hquiet hn (by simp) (by simp) ⟨rfl, rfl⟩
  | loads hn hget => exact hquiet hn (by simp) (by simp) ⟨rfl, rfl⟩
  | applies hn => exact inv_applySettlement h hn hok
  | channels hn hid => exact inv_channel h hn hid hok
  | completes hn => exact inv_completePayin h hn hok
  | claims hn hclaimed hfree => exact inv_claimCredit h hn hclaimed
  | @announces event hn =>
    have hself := h n
    rw [hn] at hself
    obtain ⟨hannounced, row, hmoved, hannounces⟩ := hself
    intro m
    show HandlerOk (logOf m s.completed) (logOf m ([event].map (n, ·) ++ s.announced)) (Function.update s.handlers n .done m)
    rw [logOf_append]
    by_cases hm : m = n
    · subst hm
      rw [Function.update_self, logOf_map_self, hannounced, List.append_nil]
      exact .inr ⟨row, event, hmoved, rfl, hannounces⟩
    · rw [Function.update_of_ne hm, logOf_map_of_ne hm, List.nil_append]
      exact h m

theorem inv_step {l : Step} (hok : announcesItsWrite s l) (hstep : s.step l = some t) : Inv t := by
  cases l with
  | elapse ms =>
    cases hstep
    exact h
  | deliver n delivery =>
    unfold System.step at hstep
    dsimp only at hstep
    split at hstep
    · next hn =>
      cases hstep
      refine inv_setHandler h ?_
      have hself := h n
      rw [hn] at hself
      exact hself
    · cases hstep
  | next n => exact inv_next h hok (next_cases hstep)
  | createOnrampQuote q =>
    unfold System.step at hstep
    dsimp only at hstep
    split at hstep <;> cases hstep
    exact h
  | cancelRampTransfer provider reference organizationId projectId =>
    unfold System.step at hstep
    dsimp only at hstep
    split at hstep <;> cases hstep
    exact h

end Next

/-! ## Every run -/

/-- No event has been delivered. -/
structure Opening (s : System) : Prop where
  handlers : ∀ n, s.handlers n = .idle
  announced : s.announced = []
  completed : s.completed = []

theorem inv_reachable {s : System} (h : Reachable System.step Opening announcesItsWrite s) : Inv s := by
  refine h.invariant (fun s hs n => ?_) fun _ _ _ _ hinv hok hstep => inv_step hinv hok hstep
  rw [hs.handlers, hs.announced, hs.completed]
  exact ⟨rfl, rfl⟩

/-- Whatever is delivered, in any order and interleaving, statuses move forward and what is terminal stays; an
announcement is of a row that its handler completed, and a handler that has completed a row of a project announces it. -/
theorem settlement_announced_once {s : System} (h : Reachable System.step Opening announcesItsWrite s) :
    (∀ t, Reachable System.step (· = s) anyStep t → ∀ id r, s.transfers.find? id = some r →
      ∃ r', t.transfers.find? id = some r' ∧ Forward r.status r'.status ∧ (Terminal r → r' = r)) ∧
    (∀ n event, (n, event) ∈ s.announced → ∃ row, (n, row) ∈ s.completed ∧ Announces event row) ∧
    ∀ n row, s.handlers n = .done → (n, row) ∈ s.completed → truthy row.projectId ≠ none →
      ∃ event, logOf n s.announced = [event] ∧ Announces event row := by
  have hinv := inv_reachable h
  refine ⟨fun t ht id r hr => ?_, fun n event hmem => ?_, fun n row hn hmem hproject => ?_⟩
  · obtain ⟨r', hr', hfollows⟩ := follows_reachable ht hr
    exact ⟨r', hr', hfollows.forward, hfollows.terminal⟩
  · have hself := hinv n
    have hlogged := mem_logOf.mpr hmem
    generalize s.handlers n = handler at hself
    have hempty : logOf n s.announced ≠ [] := List.ne_nil_of_mem hlogged
    cases handler with
    | announcing event' => exact absurd hself.1 hempty
    | done =>
      rcases hself with ⟨hnone, -⟩ | ⟨row, event', hmoved, hannounced, hannounces⟩
      · exact absurd hnone hempty
      · rw [hannounced, List.mem_singleton] at hlogged
        exact ⟨row, mem_logOf.mp (by rw [hmoved]; simp), hlogged ▸ hannounces⟩
    | _ => exact absurd hself.2 hempty
  · have hself := hinv n
    rw [hn] at hself
    have hlogged := mem_logOf.mpr hmem
    rcases hself with ⟨-, hall⟩ | ⟨row', event, hmoved, hannounced, hannounces⟩
    · exact absurd (hall row hlogged) hproject
    · rw [hmoved, List.mem_singleton] at hlogged
      exact ⟨event, hannounced, hlogged ▸ hannounces⟩

/-! A transfer through the common path, and one that BVNK pays in. -/

def moonpayTransfer : PaymentTransferRow where
  id := "t"
  organizationId := "organization"
  projectId := some "project"
  counterpartyId := some "counterparty"
  token := "USDC"
  amount := none
  type := .onramp
  status := .awaitingPayment
  provider := some .moonpay
  providerReference := some "order"
  fiatCurrency := some "USD"
  fiatAmount := some "100"
  providerData := {}
  error := none
  updatedAt := 0

def bvnkTransfer (id : String) : PaymentTransferRow :=
  { moonpayTransfer with
    id := id, provider := some .bvnk, providerReference := some id
    providerData := { fundingWalletId := some "wallet" } }

def ramps : System where
  now := 0
  transfers := ⟨[moonpayTransfer, bvnkTransfer "b"], by decide⟩
  counterparties := [⟨"counterparty", "organization", some "project", true, (some "customer", none), (none, none)⟩]
  numeric := fun value => if value = "100" ∨ value = "100.00" then some 100 else none
  handlers := fun _ => .idle
  announced := []
  completed := []
  payins := []

theorem ramps_opening : Opening ramps := ⟨fun _ => rfl, rfl, rfl⟩

def settledEvent : Delivery := .settlement (.event .moonpay "order" (.settled (some "99.5") none))

def failedEvent : Delivery := .settlement (.event .moonpay "order" (.failed (some "declined") none))

/-- Both have read the transfer. -/
def bothRead : List Step := [.deliver 0 settledEvent, .deliver 1 failedEvent, .next 0, .next 1]

/-- The settlement is applied and announced, and the failure finds nothing to write. -/
theorem settled_before_failure : ∃ s, run System.step ramps (bothRead ++ [.next 0, .next 0, .next 1]) = some s ∧
    (s.transfers.find? "t").map (fun r => (r.status, r.amount)) = some (.completed, some "99.5") ∧
    s.announced.map (·.2.transferId) = ["t"] ∧
    (∀ t, Reachable System.step (· = s) anyStep t → ∀ id r, s.transfers.find? id = some r →
      ∃ r', t.transfers.find? id = some r' ∧ Forward r.status r'.status ∧ (Terminal r → r' = r)) ∧
    (∀ n event, (n, event) ∈ s.announced → ∃ row, (n, row) ∈ s.completed ∧ Announces event row) ∧
    ∀ n row, s.handlers n = .done → (n, row) ∈ s.completed → truthy row.projectId ≠ none →
      ∃ event, logOf n s.announced = [event] ∧ Announces event row := by
  have hstart : Reachable System.step Opening announcesItsWrite ramps := .start ramps_opening
  have hdelivered := hstart.run_of (by simp [announcesItsWrite])
    (by rfl : run System.step ramps [.deliver 0 settledEvent, .deliver 1 failedEvent] = some _)
  have hread₀ := Reachable.step (l := .next 0) hdelivered (by exact trivial) rfl
  have hread₁ := Reachable.step (l := .next 1) hread₀ (by exact trivial) rfl
  have happlied := Reachable.step (l := .next 0) hread₁ (by exact fun _ => rfl) rfl
  have hannounced := Reachable.step (l := .next 0) happlied (by exact trivial) rfl
  have hlate := Reachable.step (l := .next 1) hannounced (by exact trivial) rfl
  exact ⟨_, rfl, by decide, by decide, settlement_announced_once hlate⟩

def payin : Delivery := .payin ⟨"payment", some "customer", some "wallet", some "COMPLETED", some "100.00"⟩

/-- A failure that is applied first does not keep the settlement from being announced, and a pay-in that completes its
transfer is not announced. -/
theorem announced_without_write :
    (∃ s, Reachable System.step Opening anyStep s ∧ (s.transfers.find? "t").map (·.status) = some .failed ∧
      (s.announced.map fun a => (a.1, a.2.transferId)) = [(0, "t")] ∧ s.completed = []) ∧
    ∃ s, Reachable System.step Opening anyStep s ∧ (s.completed.map fun c => (c.1, c.2.id)) = [(0, "b")] ∧
      (s.transfers.find? "b").bind (·.projectId) = some "project" ∧
      s.handlers 0 = .done ∧ s.announced = [] := by
  constructor
  · exact ⟨_, .run (.start ramps_opening) (by rfl : run System.step _ (bothRead ++ [.next 1, .next 0, .next 0]) = some _),
      by decide, by decide, by decide⟩
  · exact ⟨_, .run (.start ramps_opening)
      (by rfl : run System.step _ [.deliver 0 payin, .next 0, .next 0, .next 0, .next 0] = some _),
      by decide, by decide, rfl, by decide⟩

end Sdp.Ramps
