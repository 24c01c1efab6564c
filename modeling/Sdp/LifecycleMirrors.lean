import Sdp.Code.LifecycleMirrors
import Sdp.Lib.LastWriter

/-!
# The mirrors converge

Each mirror of a token is a register of its confirmed transactions whose last writer wins, in the order
of slot, creation time and id.
-/

open Sdp.Lib

namespace Sdp.Mirrors

variable {ι τ : Type} {row row' : Row ι τ} {token : Token τ} {call : Call} {m : Mirror}

/-! ## Calls -/

/-- The mirror that a call is about, and the value that it gives it. -/
def Call.write : Call → Mirror × Value
  | .applySettledTokenStatus paused => (.status, .status (if paused then .paused else .active))
  | .applySettledAccountFreezeState accountAddress state _ _ => (.account accountAddress, .frozen (state = .frozen))
  | .applySettledTokenAuthority role newAuthority => (.authority role, .authority newAuthority)

theorem checkPromotion_goesOn (h : checkPromotion row = .goesOn) : ∃ slot, row.slot = some slot := by
  unfold checkPromotion at h
  cases hslot : row.slot with
  | some slot => exact ⟨slot, rfl⟩
  | none => cases hstatus : row.status <;> simp [hstatus, hslot] at h

theorem checkLifecycle_goesOn {found : Bool} (h : checkLifecycle row found = .goesOn) :
    row.bookkeepingApplied = false ∧ ∃ slot, row.slot = some slot := by
  unfold checkLifecycle at h
  split at h
  · split at h <;> cases h
  · next hmarker => exact ⟨by simpa using hmarker, checkPromotion_goesOn h⟩

theorem check_goesOn (h : call.check token row = .goesOn) :
    row.operation.write = some call.write ∧ row.bookkeepingApplied = false ∧ ∃ slot, row.slot = some slot := by
  cases call with
  | applySettledTokenStatus paused =>
    simp only [Call.check, checkStatus] at h
    split at h
    · next hop =>
      refine ⟨?_, checkLifecycle_goesOn h⟩
      cases paused <;> simp [hop, statusOperation, Operation.write, Call.write]
    · cases h
  | applySettledAccountFreezeState accountAddress state actorId reason =>
    simp only [Call.check, checkFreezeState] at h
    split at h
    · next params hop =>
      split at h
      · next haccount => exact ⟨by simp [hop, Operation.write, haccount, Call.write], checkLifecycle_goesOn h⟩
      · cases h
    · next params hop =>
      split at h
      · next haccount => exact ⟨by simp [hop, Operation.write, haccount, Call.write], checkLifecycle_goesOn h⟩
      · cases h
    · cases h
  | applySettledTokenAuthority role newAuthority =>
    simp only [Call.check, checkAuthority] at h
    split at h
    · next role' newAuthority' hop =>
      split at h
      · cases h
      · next hsettled =>
        split at h
        · cases h
        · next hmarker =>
          split at h
          · next hparams =>
            refine ⟨by simp [hop, Operation.write, Call.write, hparams], by simpa using hmarker, ?_⟩
            exact Option.ne_none_iff_exists'.mp fun hslot => hsettled (.inr hslot)
          · cases h
    · cases h

theorem scans_iff {operation : Operation} :
    call.scans operation = true ↔ ∃ v, operation.write = some (call.write.1, v) := by
  cases call <;> cases operation <;> simp [Call.scans, Operation.write, Call.write]

/-! ## What a call writes -/

@[simp] theorem isAccountFrozen_setFrozenAccount (token : Token τ) (a a' : String) (account : FrozenAccount τ) :
    (token.setFrozenAccount a account).isAccountFrozen a' =
      if a' = a then account.unfrozenAt.isNone else token.isAccountFrozen a' := by
  unfold Token.isAccountFrozen Token.setFrozenAccount
  by_cases h : a' = a <;> simp [h]

theorem value_setFrozenAccount_of_ne {a : String} {account : FrozenAccount τ} (h : m ≠ .account a) :
    (token.setFrozenAccount a account).value m = token.value m := by
  cases m with
  | status => rfl
  | account a' =>
    have hne : a' ≠ a := fun ha => h (ha ▸ rfl)
    simp [Token.value, hne]
  | authority role => cases role <;> rfl

theorem freezeMirror_spec {a : String} {state : FreezeState} {actorId : String} {reason : Option String} {now : τ}
    {token' : Token τ} (h : applyAccountFreezeMirror token a state actorId reason now = .ok token') :
    token'.value (.account a) = .frozen (state = .frozen) ∧ ∀ m, m ≠ .account a → token'.value m = token.value m := by
  unfold applyAccountFreezeMirror at h
  split at h
  · next existing hexisting =>
    split at h <;> cases h
    · next hnull => exact ⟨by simp [Token.value, Token.isAccountFrozen, hexisting, hnull], fun _ _ => rfl⟩
    · exact ⟨by simp [Token.value], fun m hm => value_setFrozenAccount_of_ne hm⟩
  · cases h
    exact ⟨by simp [Token.value], fun m hm => value_setFrozenAccount_of_ne hm⟩
  · cases h
  · next existing hexisting =>
    split at h <;> cases h
    · next hset =>
      refine ⟨?_, fun _ _ => rfl⟩
      obtain ⟨unfrozenAt, hunfrozen⟩ := Option.isSome_iff_exists.mp hset
      simp [Token.value, Token.isAccountFrozen, hexisting, hunfrozen]
    · exact ⟨by simp [Token.value], fun m hm => value_setFrozenAccount_of_ne hm⟩

theorem authorityMirror_spec (token : Token τ) (role : Role) (newAuthority : Option String) :
    (applyTokenAuthorityMirror token role newAuthority).value (.authority role) = .authority newAuthority ∧
      ∀ m, m ≠ .authority role → (applyTokenAuthorityMirror token role newAuthority).value m = token.value m := by
  refine ⟨by cases role <;> rfl, fun m hm => ?_⟩
  cases m with
  | status => cases role <;> rfl
  | account a => cases role <;> rfl
  | authority role' =>
    cases role <;> cases role' <;> first | rfl | exact absurd rfl hm

theorem mirror_written {now : τ} {token' : Token τ} (h : call.mirror token false now = .ok token') :
    token'.value call.write.1 = call.write.2 ∧ ∀ m, m ≠ call.write.1 → token'.value m = token.value m := by
  cases call with
  | applySettledTokenStatus paused =>
    cases h
    refine ⟨rfl, fun m hm => ?_⟩
    cases m with
    | status => exact absurd rfl hm
    | account a => rfl
    | authority role => cases role <;> rfl
  | applySettledAccountFreezeState a state actorId reason => exact freezeMirror_spec h
  | applySettledTokenAuthority role newAuthority =>
    cases h
    exact authorityMirror_spec token role newAuthority

theorem mirror_superseded {now : τ} {token' : Token τ} (h : call.mirror token true now = .ok token') :
    token' = token := by
  cases call with
  | applySettledTokenStatus paused => cases h; rfl
  | applySettledAccountFreezeState a state actorId reason =>
    simp only [Call.mirror, if_true] at h
    split at h <;> cases h
    rfl
  | applySettledTokenAuthority role newAuthority => cases h; rfl

theorem mirror_refused {now : τ} {code : ErrorCode} (h : call.mirror token false now = .error code) :
    token.value call.write.1 = call.write.2 := by
  cases call with
  | applySettledTokenStatus paused => cases h
  | applySettledAccountFreezeState a state actorId reason =>
    simp only [Call.mirror, Bool.false_eq_true, if_false] at h
    unfold applyAccountFreezeMirror at h
    split at h
    · split at h <;> cases h
    · cases h
    · next hnone => simp [Token.value, Token.isAccountFrozen, hnone, Call.write]
    · split at h <;> cases h
  | applySettledTokenAuthority role newAuthority => cases h

/-! ## Entries -/

theorem Row.settled_iff : row.settled = true ↔ row.status = .confirmed ∧ ∃ slot, row.slot = some slot := by
  simp [Row.settled, Option.isSome_iff_exists]

/-- A confirmed transaction as a write of a mirror. -/
structure Row.Writes (row : Row ι τ) (m : Mirror) (e : Entry (Nat ×ₗ τ ×ₗ ι) Value) : Prop where
  confirmed : row.status = .confirmed
  stamp : ∃ slot, row.slot = some slot ∧ e.stamp = row.stamp slot
  write : row.operation.write = some (m, e.value)

theorem Row.Writes.settled {e : Entry (Nat ×ₗ τ ×ₗ ι) Value} (h : row.Writes m e) : row.settled = true := by
  obtain ⟨slot, hslot, -⟩ := h.stamp
  exact Row.settled_iff.mpr ⟨h.confirmed, slot, hslot⟩

theorem Row.Writes.unique {m' : Mirror} {e e' : Entry (Nat ×ₗ τ ×ₗ ι) Value} (h : row.Writes m e)
    (h' : row.Writes m' e') : m = m' ∧ e = e' := by
  obtain ⟨slot, hslot, hstamp⟩ := h.stamp
  obtain ⟨slot', hslot', hstamp'⟩ := h'.stamp
  obtain rfl : slot = slot' := Option.some.inj (hslot.symm.trans hslot')
  have hwrite := h.write.symm.trans h'.write
  simp only [Option.some.injEq, Prod.mk.injEq] at hwrite
  cases e
  cases e'
  simp_all

/-- A settled row still writes what it wrote. -/
def Keeps (row row' : Row ι τ) : Prop :=
  row.settled = true → row'.settled = true ∧ ∀ m e, row'.Writes m e ↔ row.Writes m e

instance : Std.Refl (Keeps (ι := ι) (τ := τ)) := ⟨fun _ h => ⟨h, fun _ _ => Iff.rfl⟩⟩

theorem keeps_of_unsettled (h : row.settled = false) : Keeps row row' := fun hsettled => by simp [h] at hsettled

theorem keeps_setApplied : Keeps row (setApplied row) := by
  intro h
  obtain ⟨hstatus, slot, hslot⟩ := Row.settled_iff.mp h
  refine ⟨Row.settled_iff.mpr ⟨rfl, slot, hslot⟩, fun m e => ⟨fun hw => ?_, fun hw => ?_⟩⟩
  · exact ⟨hstatus, hw.stamp, hw.write⟩
  · exact ⟨rfl, hw.stamp, hw.write⟩

variable [LinearOrder ι] {s t : System ι τ}

def System.settled (s : System ι τ) (m : Mirror) : Set (Entry (Nat ×ₗ τ ×ₗ ι) Value) :=
  { e | ∃ id row, s.rows.find? id = some row ∧ row.Writes m e }

def System.appliedTo (s : System ι τ) (m : Mirror) : Set (Entry (Nat ×ₗ τ ×ₗ ι) Value) :=
  { e | ∃ id row, s.rows.find? id = some row ∧ row.Writes m e ∧ id ∈ s.applied }

theorem appliedTo_subset (s : System ι τ) (m : Mirror) : s.appliedTo m ⊆ s.settled m :=
  fun _ ⟨id, row, hrow, hwrites, _⟩ => ⟨id, row, hrow, hwrites⟩

theorem stamp_injOn (s : System ι τ) (m : Mirror) : Set.InjOn Entry.stamp (s.settled m) := by
  rintro e ⟨id, row, hrow, hwrites⟩ e' ⟨id', row', hrow', hwrites'⟩ hstamp
  obtain ⟨slot, -, he⟩ := hwrites.stamp
  obtain ⟨slot', -, he'⟩ := hwrites'.stamp
  have hid : row.id = row'.id := by
    have heq : row.stamp slot = row'.stamp slot' := by rw [← he, hstamp, he']
    exact congrArg (fun k => (ofLex (ofLex k).2).2) heq
  have hids : id = id' := by rw [← Table.key_of_find? hrow, ← Table.key_of_find? hrow', hid]
  subst hids
  obtain rfl : row = row' := Option.some.inj (hrow.symm.trans hrow')
  have hvalue : e.value = e'.value := by
    have h := hwrites.write.symm.trans hwrites'.write
    simpa using h
  cases e
  cases e'
  simp_all

/-! ## Later rows -/

/-- What has been applied is confirmed. -/
def System.AppliedSettled (s : System ι τ) : Prop :=
  ∀ id ∈ s.applied, ∃ row, s.rows.find? id = some row ∧ row.settled = true

section

variable (hrows : s.rows.Evolves Keeps t.rows)
include hrows

theorem settled_mono (m : Mirror) : s.settled m ⊆ t.settled m := by
  rintro e ⟨id, row, hrow, hwrites⟩
  obtain ⟨row', hrow', hkeeps⟩ := hrows id row hrow
  exact ⟨id, row', hrow', ((hkeeps hwrites.settled).2 m e).mpr hwrites⟩

theorem appliedTo_mono (happlied : s.applied ⊆ t.applied) (m : Mirror) : s.appliedTo m ⊆ t.appliedTo m := by
  rintro e ⟨id, row, hrow, hwrites, hid⟩
  obtain ⟨row', hrow', hkeeps⟩ := hrows id row hrow
  exact ⟨id, row', hrow', ((hkeeps hwrites.settled).2 m e).mpr hwrites, happlied hid⟩

theorem appliedSettled_of_same (h : s.AppliedSettled) (happlied : t.applied = s.applied) : t.AppliedSettled := by
  intro id hid
  obtain ⟨row, hrow, hsettled⟩ := h id (happlied ▸ hid)
  obtain ⟨row', hrow', hkeeps⟩ := hrows id row hrow
  exact ⟨row', hrow', (hkeeps hsettled).1⟩

theorem appliedSettled_of_cons (h : s.AppliedSettled) (happlied : t.applied = row.id :: s.applied)
    (hrow : ∃ row', t.rows.find? row.id = some row' ∧ row'.settled = true) : t.AppliedSettled := by
  intro id hid
  rw [happlied] at hid
  rcases List.mem_cons.mp hid with rfl | hid
  · exact hrow
  · obtain ⟨row₀, hrow₀, hsettled⟩ := h id hid
    obtain ⟨row', hrow', hkeeps⟩ := hrows id row₀ hrow₀
    exact ⟨row', hrow', (hkeeps hsettled).1⟩

theorem appliedTo_cases (h : s.AppliedSettled) {e : Entry (Nat ×ₗ τ ×ₗ ι) Value} (he : e ∈ t.appliedTo m) :
    e ∈ s.appliedTo m ∨ ∃ id row, id ∈ t.applied ∧ id ∉ s.applied ∧ t.rows.find? id = some row ∧ row.Writes m e := by
  obtain ⟨id, row', hrow', hwrites, hid⟩ := he
  by_cases hold : id ∈ s.applied
  · obtain ⟨row, hrow, hsettled⟩ := h id hold
    obtain ⟨row'', hrow'', hkeeps⟩ := hrows id row hrow
    obtain rfl : row' = row'' := Option.some.inj (hrow'.symm.trans hrow'')
    exact .inl ⟨id, row, hrow, ((hkeeps hsettled).2 m e).mp hwrites, hold⟩
  · exact .inr ⟨id, row', hid, hold, hrow', hwrites⟩

theorem appliedTo_of_same (h : s.AppliedSettled) (happlied : t.applied = s.applied) (m : Mirror) :
    t.appliedTo m ⊆ s.appliedTo m := by
  intro e he
  refine (appliedTo_cases hrows h he).resolve_right ?_
  rintro ⟨id, row, hid, hnot, -⟩
  exact hnot (happlied ▸ hid)

end

/-! ## Calls as steps -/

theorem begin_cases {id : ι} {now : τ} (h : s.begin id call now = some t) :
    t = s ∨ ∃ row, s.rows.find? id = some row ∧ call.check s.token row = .goesOn ∧
      t = { s with active := some ⟨call, row, now, none⟩ } := by
  unfold System.begin at h
  split at h
  · cases h
  · split at h
    · cases h
      exact .inl rfl
    · next row hrow =>
      split at h
      · next hcheck =>
        cases h
        exact .inr ⟨row, hrow, hcheck, rfl⟩
      all_goals
        cases h
        exact .inl rfl

theorem finish_cases (h : s.finish = some t) : ∃ a newer, s.active = some a ∧ a.newer = some newer ∧ t.active = none ∧
    ((t.rows = s.rows.update a.row.id (fun row => !row.bookkeepingApplied) setApplied setApplied_id ∧
        a.call.mirror s.token newer a.now = .ok t.token ∧ t.applied = a.row.id :: s.applied) ∨
      ∃ code, a.call.mirror s.token newer a.now = .error code ∧ t.rows = s.rows ∧ t.token = s.token ∧
        t.applied = if a.row.settled then a.row.id :: s.applied else s.applied) := by
  unfold System.finish at h
  split at h
  · next call row now newer hactive =>
    refine ⟨_, newer, hactive, rfl, ?_⟩
    split at h
    · next token htoken =>
      cases h
      exact ⟨rfl, .inl ⟨rfl, htoken, rfl⟩⟩
    · next code hcode =>
      cases h
      exact ⟨rfl, .inr ⟨code, hcode, rfl, rfl, rfl⟩⟩
  · cases h

theorem settled_of_finish {a : Active ι τ} (hrow : s.rows.find? a.row.id = some a.row) (hsettled : a.row.settled = true)
    (hrows : t.rows = s.rows.update a.row.id (fun row => !row.bookkeepingApplied) setApplied setApplied_id) (m : Mirror) :
    t.settled m ⊆ s.settled m := by
  rintro e ⟨id, row', hrow', hwrites⟩
  rw [hrows] at hrow'
  obtain ⟨row, hold, rfl | ⟨rfl, -, rfl⟩⟩ := Table.row_of_update setApplied_id hrow'
  · exact ⟨id, row', hold, hwrites⟩
  · obtain rfl : row = a.row := Option.some.inj (hold.symm.trans hrow)
    exact ⟨_, a.row, hrow, ((keeps_setApplied hsettled).2 m e).mp hwrites⟩

/-! ## The invariant -/

variable [LinearOrder τ]

theorem newerThan_iff {slot slot' : Nat} (hslot : row.slot = some slot) (hslot' : row'.slot = some slot') :
    row'.newerThan row = true ↔ row.stamp slot < row'.stamp slot' := by
  simp only [Row.newerThan, hslot, hslot', Row.stamp, Prod.Lex.toLex_lt_toLex, Bool.or_eq_true, Bool.and_eq_true,
    decide_eq_true_eq, gt_iff_lt]
  constructor
  · rintro ((h | ⟨rfl, h⟩) | ⟨⟨rfl, h⟩, hid⟩)
    · exact .inl h
    · exact .inr ⟨rfl, .inl h⟩
    · exact .inr ⟨rfl, .inr ⟨h.symm, hid⟩⟩
  · rintro (h | ⟨rfl, h | ⟨h, hid⟩⟩)
    · exact .inl (.inl h)
    · exact .inl (.inr ⟨rfl, h⟩)
    · exact .inr ⟨⟨rfl, h.symm⟩, hid⟩

/-- What a call that holds the lock relies on. -/
structure Active.Ready (s : System ι τ) (a : Active ι τ) (slot : Nat) : Prop where
  row : s.rows.find? a.row.id = some a.row
  inSlot : a.row.slot = some slot
  unmarked : a.row.bookkeepingApplied = false
  write : a.row.operation.write = some a.call.write
  /-- What is confirmed after the scan cannot be applied before the call ends. -/
  unsuperseded : a.newer = some false → ∀ e ∈ s.appliedTo a.call.write.1, ¬ a.row.stamp slot < e.stamp
  superseded : a.newer = some true → ∃ e ∈ s.settled a.call.write.1, a.row.stamp slot < e.stamp

structure Invariant (s : System ι τ) : Prop where
  applied : s.AppliedSettled
  active : ∀ a, s.active = some a → ∃ slot, a.Ready s slot
  mirrored : ∀ m, Entry.Mirrored (s.settled m) (s.appliedTo m) (s.token.value m)

theorem invariant_of_rows (hs : Invariant s) (hrows : s.rows.Evolves Keeps t.rows) (htoken : t.token = s.token)
    (happlied : t.applied = s.applied)
    (hactive : ∀ a, t.active = some a → s.active = some a ∧ t.rows.find? a.row.id = some a.row) : Invariant t := by
  have hsub := appliedTo_of_same hrows hs.applied happlied
  refine ⟨appliedSettled_of_same hrows hs.applied happlied, fun a ha => ?_, fun m => ?_⟩
  · obtain ⟨hsame, hrow⟩ := hactive a ha
    obtain ⟨slot, hready⟩ := hs.active a hsame
    refine ⟨slot, { hready with row := hrow, unsuperseded := ?_, superseded := ?_ }⟩
    · exact fun hnewer e he => hready.unsuperseded hnewer e (hsub _ he)
    · intro hnewer
      obtain ⟨e, he, hlt⟩ := hready.superseded hnewer
      exact ⟨e, settled_mono hrows _ he, hlt⟩
  · rw [htoken]
    exact (hs.mirrored m).settle (appliedTo_subset s m) (settled_mono hrows m) (hsub m)

theorem invariant_updateRow {id : ι} {set : Row ι τ → Row ι τ} {hset : ∀ r, (set r).id = r.id} (hs : Invariant s)
    (h : s.updateRow id set hset = some t) : Invariant t := by
  unfold System.updateRow at h
  split at h
  · cases h
  · next hfree =>
    cases h
    have hrows : s.rows.Evolves Keeps (s.rows.update id (fun row => !row.settled) set hset) :=
      Table.evolves_update hset fun row _ hguard => keeps_of_unsettled (by simpa using hguard)
    refine invariant_of_rows hs hrows rfl rfl fun a ha => ⟨ha, ?_⟩
    obtain ⟨slot, hready⟩ := hs.active a ha
    have hne : a.row.id ≠ id := fun hid => hfree (by rw [show s.active = some a from ha]; simp [hid])
    rw [Table.find?_update, if_neg hne]
    exact hready.row

theorem invariant_begin {id : ι} {now : τ} (hs : Invariant s) (h : s.begin id call now = some t) : Invariant t := by
  rcases begin_cases h with rfl | ⟨row, hrow, hcheck, rfl⟩
  · exact hs
  · obtain ⟨hwrite, hmarker, slot, hslot⟩ := check_goesOn hcheck
    refine ⟨hs.applied, fun a ha => ?_, hs.mirrored⟩
    cases ha
    obtain rfl := Table.key_of_find? hrow
    exact ⟨slot, hrow, hslot, hmarker, hwrite, nofun, nofun⟩

theorem scan_cases (h : s.scan = some t) : ∃ a, s.active = some a ∧
    t = { s with active := some { a with newer := some (s.rows.rows.any (a.call.supersedes a.row)) } } := by
  unfold System.scan at h
  split at h
  · next a ha =>
    split at h <;> cases h
    exact ⟨a, ha, rfl⟩
  · cases h

theorem supersedes_iff {slot : Nat} {row' : Row ι τ} {id : ι} (hslot : row.slot = some slot)
    (hrow' : s.rows.find? id = some row') (h : call.supersedes row row' = true) :
    ∃ e ∈ s.settled call.write.1, row.stamp slot < e.stamp := by
  simp only [Call.supersedes, Bool.and_eq_true, decide_eq_true_eq] at h
  obtain ⟨⟨hscans, hconfirmed⟩, hnewer⟩ := h
  obtain ⟨v, hv⟩ := scans_iff.mp hscans
  cases hslot' : row'.slot with
  | none => simp [Row.newerThan, hslot', hslot] at hnewer
  | some slot' =>
    refine ⟨⟨row'.stamp slot', v⟩, ⟨id, row', hrow', hconfirmed, ⟨slot', hslot', rfl⟩, hv⟩, ?_⟩
    exact (newerThan_iff hslot hslot').mp hnewer

/-- Every settled write of its mirror that is newer is found by the scan. -/
theorem supersedes_of_newer {slot : Nat} (hslot : row.slot = some slot) {e : Entry (Nat ×ₗ τ ×ₗ ι) Value}
    (hwrites : row'.Writes call.write.1 e) (hlt : row.stamp slot < e.stamp) : call.supersedes row row' = true := by
  obtain ⟨slot', hslot', hstamp⟩ := hwrites.stamp
  rw [hstamp] at hlt
  simp only [Call.supersedes, Bool.and_eq_true, decide_eq_true_eq]
  exact ⟨⟨scans_iff.mpr ⟨e.value, hwrites.write⟩, hwrites.confirmed⟩, (newerThan_iff hslot hslot').mpr hlt⟩

theorem invariant_scan (hs : Invariant s) (h : s.scan = some t) : Invariant t := by
  obtain ⟨a, ha, rfl⟩ := scan_cases h
  refine ⟨hs.applied, fun a' ha' => ?_, hs.mirrored⟩
  cases ha'
  obtain ⟨slot, hready⟩ := hs.active a ha
  refine ⟨slot, hready.row, hready.inSlot, hready.unmarked, hready.write, fun hnewer e he hlt => ?_, fun hnewer => ?_⟩
  · obtain ⟨id, row', hrow', hwrites⟩ := appliedTo_subset s _ he
    have hfound := supersedes_of_newer hready.inSlot hwrites hlt
    have hnone := List.any_eq_false.mp (Option.some.inj hnewer) row' (Table.find?_eq_some_iff.mp hrow').1
    exact hnone hfound
  · obtain ⟨row', hmem, hfound⟩ := List.any_eq_true.mp (Option.some.inj hnewer)
    exact supersedes_iff hready.inSlot (Table.mem_rows_iff.mp hmem) hfound

theorem invariant_applied {a : Active ι τ} {slot : Nat} {newer : Bool} (hs : Invariant s) (hready : a.Ready s slot)
    (hnewer : a.newer = some newer) (hactive : t.active = none) (hrows : s.rows.Evolves Keeps t.rows)
    (happlied : t.applied = a.row.id :: s.applied)
    (hrow : ∃ row', t.rows.find? a.row.id = some row' ∧ row'.Writes a.call.write.1 ⟨a.row.stamp slot, a.call.write.2⟩)
    (hother : ∀ m, m ≠ a.call.write.1 → t.token.value m = s.token.value m)
    (hvalue : t.token.value a.call.write.1 = if newer then s.token.value a.call.write.1 else a.call.write.2) :
    Invariant t := by
  obtain ⟨row', hrow', hwrites⟩ := hrow
  have hnew : ∀ m e, e ∈ t.appliedTo m →
      e ∈ s.appliedTo m ∨ a.call.write.1 = m ∧ ⟨a.row.stamp slot, a.call.write.2⟩ = e := by
    intro m e he
    refine (appliedTo_cases hrows hs.applied he).imp_right ?_
    rintro ⟨id, row, hid, hnot, hrow, hw⟩
    obtain rfl : id = a.row.id := (List.mem_cons.mp (happlied ▸ hid)).resolve_right hnot
    obtain rfl : row' = row := Option.some.inj (hrow'.symm.trans hrow)
    exact hwrites.unique hw
  refine ⟨appliedSettled_of_cons hrows hs.applied happlied ⟨row', hrow', hwrites.settled⟩, fun a ha => ?_, fun m => ?_⟩
  · simp [hactive] at ha
  · by_cases hm : m = a.call.write.1
    · subst hm
      have hsettled := settled_mono hrows a.call.write.1
      have hsub : t.appliedTo a.call.write.1 ⊆ insert ⟨a.row.stamp slot, a.call.write.2⟩ (s.appliedTo a.call.write.1) :=
        fun e he => (hnew _ e he).elim .inr fun h => .inl h.2.symm
      have hmono {v : Value} (h : Entry.Mirrored (t.settled a.call.write.1)
          (insert ⟨a.row.stamp slot, a.call.write.2⟩ (s.appliedTo a.call.write.1)) v) :
          Entry.Mirrored (t.settled a.call.write.1) (t.appliedTo a.call.write.1) v :=
        fun e he hmem => h e he (hsub hmem)
      rw [hvalue]
      cases newer with
      | false =>
        refine hmono (Entry.Mirrored.write (stamp_injOn t _) ⟨_, row', hrow', hwrites⟩ fun e he _ => ?_)
        exact hready.unsuperseded hnewer e he
      | true =>
        obtain ⟨e, he, hlt⟩ := hready.superseded hnewer
        have hold := (hs.mirrored a.call.write.1).settle (appliedTo_subset s _) hsettled subset_rfl
        exact hmono (hold.drop (hsettled he) hlt)
    · rw [hother m hm]
      refine (hs.mirrored m).settle (appliedTo_subset s m) (settled_mono hrows m) fun e he => ?_
      exact (hnew m e he).resolve_right fun h => hm h.1.symm

theorem invariant_finish (hs : Invariant s) (h : s.finish = some t) : Invariant t := by
  obtain ⟨a, newer, ha, hnewer, hactive, hend⟩ := finish_cases h
  obtain ⟨slot, hready⟩ := hs.active a ha
  rcases hend with ⟨hrows, htoken, happlied⟩ | ⟨code, hcode, hrows, htoken, happlied⟩
  · have hrow : t.rows.find? a.row.id = some (setApplied a.row) := by
      rw [hrows, Table.find?_update, if_pos rfl, hready.row]
      simp [hready.unmarked]
    have hevolves : s.rows.Evolves Keeps t.rows := by
      rw [hrows]
      exact Table.evolves_update _ fun _ _ _ => keeps_setApplied
    refine invariant_applied hs hready hnewer hactive hevolves happlied
      ⟨_, hrow, rfl, ⟨slot, hready.inSlot, rfl⟩, hready.write⟩ (fun m hm => ?_) ?_
    · cases newer with
      | false => exact (mirror_written htoken).2 m hm
      | true => rw [mirror_superseded htoken]
    · cases newer with
      | false => exact (mirror_written htoken).1
      | true => rw [mirror_superseded htoken]; rfl
  · have hevolves : s.rows.Evolves Keeps t.rows := hrows ▸ Table.Evolves.refl
    split at happlied
    · next hsettled =>
      have hconfirmed := (Row.settled_iff.mp hsettled).1
      refine invariant_applied hs hready hnewer hactive hevolves happlied
        ⟨_, hrows ▸ hready.row, hconfirmed, ⟨slot, hready.inSlot, rfl⟩, hready.write⟩ (fun m _ => by rw [htoken]) ?_
      rw [htoken]
      cases newer with
      | false => exact mirror_refused hcode
      | true => rfl
    · exact invariant_of_rows hs hevolves htoken happlied fun a ha => by simp [hactive] at ha

theorem invariant_step {l : Step ι τ} (hs : Invariant s) (h : s.step l = some t) : Invariant t := by
  cases l with
  | createTransaction id operation createdAt =>
    cases h
    have hrows := Table.evolves_insertNew (R := Keeps) (t := s.rows) ⟨id, operation, .pending, none, none, createdAt, false⟩
    refine invariant_of_rows hs hrows rfl rfl fun a ha => ⟨ha, ?_⟩
    obtain ⟨slot, hready⟩ := hs.active a ha
    rw [Table.find?_insertNew, hready.row]
    simp
  | updateStatus id status =>
    simp only [System.step] at h
    split at h
    · cases h
    · exact invariant_updateRow hs h
  | journal id signature slot => exact invariant_updateRow hs h
  | confirm id signature slot => exact invariant_updateRow hs h
  | call id call now => exact invariant_begin hs h
  | scan => exact invariant_scan hs h
  | finish => exact invariant_finish hs h
  | fail =>
    simp only [System.step, System.fail] at h
    split at h <;> cases h
    exact invariant_of_rows hs Table.Evolves.refl rfl rfl fun a ha => by cases ha

theorem invariant_of_reachable (h : Reachable System.step System.Initial anyStep s) : Invariant s := by
  refine h.invariant (P := Invariant) (fun s hs => ?_) fun s l t _ hs _ ht => invariant_step hs ht
  refine ⟨fun id hid => ?_, fun a ha => ?_, fun m e _ ⟨id, row, _, _, hid⟩ => ?_⟩
  · simp [hs.applied] at hid
  · simp [hs.active] at ha
  · simp [hs.applied] at hid

/-! ## Replays -/

/-- Calls for transactions that have been applied, up to their end. -/
def replays (s : System ι τ) : Step ι τ → Prop
  | .call id _ _ => id ∈ s.applied
  | .scan | .finish | .fail => True
  | .createTransaction .. | .updateStatus .. | .journal .. | .confirm .. => False

/-- What replays leave as it was in `s₀`. -/
structure Replayed (s₀ s : System ι τ) : Prop where
  active : ∀ a, s.active = some a → a.row.id ∈ s.applied
  settled : ∀ m, s.settled m ⊆ s₀.settled m
  applied : ∀ m, s₀.appliedTo m ⊆ s.appliedTo m

theorem replayed_finish {s₀ : System ι τ} (hinv : Invariant s) (hs : Replayed s₀ s) (h : s.finish = some t) :
    Replayed s₀ t := by
  obtain ⟨a, newer, ha, -, hactive, hend⟩ := finish_cases h
  obtain ⟨slot, hready⟩ := hinv.active a ha
  obtain ⟨row, hrow, hsettled⟩ := hinv.applied a.row.id (hs.active a ha)
  obtain rfl : a.row = row := Option.some.inj (hready.row.symm.trans hrow)
  have hnone : ∀ a', t.active = some a' → a'.row.id ∈ t.applied := fun a' ha' => by simp [hactive] at ha'
  rcases hend with ⟨hrows, -, happlied⟩ | ⟨code, -, hrows, -, happlied⟩
  · have hevolves : s.rows.Evolves Keeps t.rows := by
      rw [hrows]
      exact Table.evolves_update _ fun _ _ _ => keeps_setApplied
    have hsub : s.applied ⊆ t.applied := happlied ▸ List.subset_cons_self ..
    exact ⟨hnone, fun m => (settled_of_finish hrow hsettled hrows m).trans (hs.settled m),
      fun m => (hs.applied m).trans (appliedTo_mono hevolves hsub m)⟩
  · rw [if_pos hsettled] at happlied
    have hevolves : s.rows.Evolves Keeps t.rows := hrows ▸ Table.Evolves.refl
    have hsub : s.applied ⊆ t.applied := happlied ▸ List.subset_cons_self ..
    refine ⟨hnone, fun m => ?_, fun m => (hs.applied m).trans (appliedTo_mono hevolves hsub m)⟩
    unfold System.settled
    rw [hrows]
    exact hs.settled m

theorem replayed_step {s₀ : System ι τ} {l : Step ι τ} (hinv : Invariant s) (hs : Replayed s₀ s) (hok : replays s l)
    (h : s.step l = some t) : Replayed s₀ t := by
  cases l with
  | createTransaction | updateStatus | journal | confirm => cases hok
  | call id call now =>
    rcases begin_cases h with rfl | ⟨row, hrow, -, rfl⟩
    · exact hs
    · refine ⟨fun a ha => ?_, hs.settled, hs.applied⟩
      cases ha
      rw [Table.key_of_find? hrow]
      exact hok
  | scan =>
    obtain ⟨a, ha, rfl⟩ := scan_cases h
    refine ⟨fun a' ha' => ?_, hs.settled, hs.applied⟩
    cases ha'
    exact hs.active a ha
  | finish => exact replayed_finish hinv hs h
  | fail =>
    simp only [System.step, System.fail] at h
    split at h <;> cases h
    exact ⟨fun a ha => (by cases ha), hs.settled, hs.applied⟩

/-- Replays show what was shown. -/
theorem value_of_replays (hs : Invariant s) (hactive : s.active = none) {e : Entry (Nat ×ₗ τ ×ₗ ι) Value}
    (he : Entry.Latest (s.settled m) e) (happlied : e ∈ s.appliedTo m)
    (ht : Reachable System.step (· = s) replays t) : t.token.value m = e.value := by
  have hboth : Invariant t ∧ Replayed s t := by
    refine ht.invariant (P := fun t => Invariant t ∧ Replayed s t) ?_ ?_
    · rintro _ rfl
      exact ⟨hs, by simp [hactive], fun _ => subset_rfl, fun _ => subset_rfl⟩
    · rintro u l u' - ⟨hinv, hrep⟩ hok hu
      exact ⟨invariant_step hinv hu, replayed_step hinv hrep hok hu⟩
  obtain ⟨hinv, hrep⟩ := hboth
  have hmem := hrep.applied m happlied
  exact hinv.mirrored m e ⟨appliedTo_subset t m hmem, fun e' he' => he.2 e' (hrep.settled m he')⟩ hmem

theorem step_call_of_marked {id : ι} {now : τ} (hactive : s.active = none) (hrow : s.rows.find? id = some row)
    (hmarker : row.bookkeepingApplied = true) : s.step (.call id call now) = some s := by
  have hcheck : call.check s.token row ≠ .goesOn := fun h => by simp [(check_goesOn h).2.1] at hmarker
  simp only [System.step, System.begin, hactive, hrow, Option.isSome_none, Bool.false_eq_true, if_false]
  split
  · next h => exact absurd h hcheck
  all_goals rfl

theorem call_applies {id : ι} {now : τ} (hactive : s.active = none) (hrow : s.rows.find? id = some row)
    (hsettled : row.settled = true) (hcheck : call.check s.token row = .goesOn) :
    ∃ t, run System.step s [.call id call now, .scan, .finish] = some t ∧ id ∈ t.applied ∧ t.active = none := by
  obtain rfl := Table.key_of_find? hrow
  simp only [run, System.step, System.begin, hactive, hrow, hcheck, System.scan, System.finish, Option.isSome_none,
    Bool.false_eq_true, if_false, Option.isNone_none, if_true, Option.bind_some]
  split
  · exact ⟨_, rfl, .head _, rfl⟩
  · refine ⟨_, rfl, ?_, rfl⟩
    simp [hsettled]

/-- In every state that any run reaches, the mirror of a confirmed transaction that is the greatest of its mirror in
slot, creation time and id shows that transaction once it has been applied. Replays of transactions that have been
applied, in any order and number and up to any of their statements, leave it so, and a transaction with its marker is
not touched at all. -/
theorem settled_mirrors_converge (h : Reachable System.step System.Initial anyStep s) {slot : Nat} {v : Value}
    (hrow : s.rows.find? row.id = some row) (hconfirmed : row.status = .confirmed) (hslot : row.slot = some slot)
    (hwrite : row.operation.write = some (m, v))
    (hgreatest : ∀ row' slot' v', s.rows.find? row'.id = some row' → row'.status = .confirmed →
      row'.slot = some slot' → row'.operation.write = some (m, v') → row'.stamp slot' ≤ row.stamp slot)
    (happlied : row.id ∈ s.applied) :
    s.token.value m = v ∧ (s.active = none →
      (∀ t, Reachable System.step (· = s) replays t → t.token.value m = v) ∧
      ∀ id row' call now, s.rows.find? id = some row' → row'.bookkeepingApplied = true →
        s.step (.call id call now) = some s) := by
  have hs := invariant_of_reachable h
  have hwrites : row.Writes m ⟨row.stamp slot, v⟩ := ⟨hconfirmed, ⟨slot, hslot, rfl⟩, hwrite⟩
  have hlatest : Entry.Latest (s.settled m) ⟨row.stamp slot, v⟩ := by
    refine ⟨⟨_, row, hrow, hwrites⟩, ?_⟩
    rintro e ⟨id, row', hrow', hwrites'⟩
    obtain ⟨slot', hslot', hstamp⟩ := hwrites'.stamp
    obtain rfl := Table.key_of_find? hrow'
    rw [hstamp]
    exact hgreatest row' slot' e.value hrow' hwrites'.confirmed hslot' hwrites'.write
  have hmem : (⟨row.stamp slot, v⟩ : Entry _ _) ∈ s.appliedTo m := ⟨_, row, hrow, hwrites, happlied⟩
  refine ⟨hs.mirrored m _ hlatest hmem, fun hactive => ⟨fun t ht => ?_, fun id row' call now hrow' hmarker => ?_⟩⟩
  · exact value_of_replays hs hactive hlatest hmem ht
  · exact step_call_of_marked hactive hrow' hmarker

def pausedToken : System Nat Nat :=
  { rows := .empty
    token := ⟨.paused, fun _ => none, some "authority", true, some "authority", true, some "authority", none, none⟩
    active := none
    applied := [] }

theorem pausedToken_initial : pausedToken.Initial := ⟨by simp [pausedToken], rfl, rfl⟩

/-- An unpause is applied before the pause that it ends is known to have landed, and the pause after it, twice. -/
def outOfOrder : List (Step Nat Nat) :=
  [.createTransaction 1 .pause 10, .createTransaction 2 .unpause 11, .confirm 2 "two" (some 9),
    .call 2 (.applySettledTokenStatus false) 20, .scan, .journal 1 "one" 5, .finish,
    .call 1 (.applySettledTokenStatus true) 21, .scan, .finish, .call 1 (.applySettledTokenStatus true) 22]

def pauseRow : Row Nat Nat := ⟨1, .pause, .confirmed, some "one", some 5, 10, true⟩

def unpauseRow : Row Nat Nat := ⟨2, .unpause, .confirmed, some "two", some 9, 11, true⟩

/-- The token is active at the end, and stays so. -/
theorem late_pause_is_superseded :
    ∃ s, run System.step pausedToken outOfOrder = some s ∧ s.applied = [1, 2] ∧ s.token.value .status = .status .active ∧
      s.step (.call 1 (.applySettledTokenStatus true) 23) = some s := by
  have hrun : ((run System.step pausedToken outOfOrder).map fun s => (s.rows.rows, s.applied, s.active.isNone)) =
      some ([pauseRow, unpauseRow], [1, 2], true) := by rfl
  obtain ⟨s, hs, hvalues⟩ := Option.map_eq_some_iff.mp hrun
  simp only [Prod.mk.injEq] at hvalues
  obtain ⟨hrows, happlied, hactive⟩ := hvalues
  have hmem {row : Row Nat Nat} (h : row = pauseRow ∨ row = unpauseRow) : s.rows.find? row.id = some row :=
    Table.mem_rows_iff.mp (by simpa [hrows] using h)
  have hlast : s.rows.find? unpauseRow.id = some unpauseRow := hmem (.inr rfl)
  have hconverged := settled_mirrors_converge (m := .status) ((Reachable.start pausedToken_initial).run hs)
    hlast rfl rfl rfl (fun row' slot' v' hrow' _ hslot' _ => ?_) (by rw [happlied]; decide)
  · refine ⟨s, hs, happlied, hconverged.1, ?_⟩
    exact (hconverged.2 (Option.isNone_iff_eq_none.mp hactive)).2 1 pauseRow _ _ (hmem (.inl rfl)) rfl
  · have hrow := Table.mem_rows_iff.mpr hrow'
    rw [hrows] at hrow
    rcases List.mem_pair.mp hrow with rfl | rfl
    · cases hslot'
      decide
    · cases hslot'
      exact le_rfl

end Sdp.Mirrors
