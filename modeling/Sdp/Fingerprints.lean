import Sdp.Code.Idempotency
import Sdp.Lib.JsSame

/-!
# Fingerprints of requests

The text of a normalized value tells it up to the order of its members, members that are undefined, and what the
serializer itself writes alike: an undefined item or a number that is not finite, and `null`.
-/

open Std Sdp.Lib.Json

namespace Sdp.Idempotency

variable {localeCompare : String → String → Ordering}

/-! ## Normalizing -/

def normalizedEntry (localeCompare : String → String → Ordering) (m : String × JsValue) : Option (String × JsValue) :=
  match m.2 with
  | .undefined => none
  | v => some (m.1, normalizeForFingerprint localeCompare v)

@[simp] theorem normalize_arr (items : List JsValue) :
    normalizeForFingerprint localeCompare (.arr items) = .arr (items.map (normalizeForFingerprint localeCompare)) := by
  have hitems : normalizeItems localeCompare items = items.map (normalizeForFingerprint localeCompare) := by
    induction items with
    | nil => rfl
    | cons v items ih => rw [normalizeItems, ih, List.map_cons]
  rw [normalizeForFingerprint, hitems]

@[simp] theorem normalize_obj (members : Members JsValue) :
    normalizeForFingerprint localeCompare (.obj members) =
      .obj (arranged localeCompare (members.filterMap (normalizedEntry localeCompare))) := by
  have hmembers : normalizeEntries localeCompare members = members.filterMap (normalizedEntry localeCompare) := by
    induction members with
    | nil => rfl
    | cons m members ih =>
      obtain ⟨key, v⟩ := m
      rw [List.filterMap_cons]
      cases v <;> simp only [normalizeEntries, normalizedEntry, ih]
  rw [normalizeForFingerprint, hmembers]

theorem normalize_eq_undefined {v : JsValue} : normalizeForFingerprint localeCompare v = .undefined ↔ v = .undefined := by
  cases v <;> simp [normalizeForFingerprint]

theorem normalizedEntry_eq_some {m m' : String × JsValue} (h : normalizedEntry localeCompare m = some m') :
    m.2 ≠ .undefined ∧ m' = (m.1, normalizeForFingerprint localeCompare m.2) := by
  obtain ⟨key, v⟩ := m
  cases v <;> simp_all [normalizedEntry]

theorem normalizedEntry_of_ne {m : String × JsValue} (h : m.2 ≠ .undefined) :
    normalizedEntry localeCompare m = some (m.1, normalizeForFingerprint localeCompare m.2) := by
  obtain ⟨key, v⟩ := m
  cases v <;> simp_all [normalizedEntry]

theorem map_fst_normalizedEntry (members : Members JsValue) :
    List.Sublist ((members.filterMap (normalizedEntry localeCompare)).map Prod.fst) (members.map Prod.fst) := by
  induction members with
  | nil => simp
  | cons m members ih =>
    rw [List.filterMap_cons]
    cases hm : normalizedEntry localeCompare m with
    | none => exact ih.cons _
    | some m' =>
      obtain ⟨-, rfl⟩ := normalizedEntry_eq_some hm
      exact ih.cons_cons _

theorem toTree?_eq_none {v : JsValue} : v.toTree? = none ↔ v = .undefined := by
  cases v with
  | num n => cases n <;> simp [JsValue.toTree?]
  | undefined | null | bool | str | arr | obj => simp [JsValue.toTree?]

theorem toTree?_normalize (v : JsValue) :
    (normalizeForFingerprint localeCompare v).toTree? = v.toTree?.map (Tree.canonical localeCompare) := by
  induction v with
  | undefined | null | bool | str => rfl
  | num n => cases n <;> rfl
  | arr items ih =>
    rw [normalize_arr, toTree?_arr, toTree?_arr, List.map_map, Option.map_some, Tree.canonical, reorder_arr, List.map_map]
    refine congrArg (some ∘ Tree.arr) (List.map_congr_left fun v hv => ?_)
    simp only [Function.comp_apply, ih v hv]
    cases v.toTree? <;> rfl
  | obj members ih =>
    set entries := members.filterMap (normalizedEntry localeCompare) with hentries
    -- Every entry is written, so that writing them is a map.
    have hwritten (l : Members JsValue) (hl : ∀ m ∈ l, m.2 ≠ .undefined) :
        l.filterMap writtenMember = l.map fun m => (m.1, m.2.toTree?.getD .null) := by
      rw [← List.filterMap_eq_map]
      refine List.filterMap_congr fun m hm => ?_
      obtain ⟨t, ht⟩ := Option.ne_none_iff_exists'.mp (mt toTree?_eq_none.mp (hl m hm))
      simp [writtenMember, ht]
    have hdefined : ∀ m ∈ entries, m.2 ≠ .undefined := by
      intro m hm
      obtain ⟨m₀, -, hsome⟩ := List.mem_filterMap.mp hm
      obtain ⟨hne, rfl⟩ := normalizedEntry_eq_some hsome
      exact mt normalize_eq_undefined.mp hne
    have hmap : (arranged localeCompare entries).map (fun m => (m.1, m.2.toTree?.getD .null)) =
        arranged localeCompare (entries.map fun m => (m.1, m.2.toTree?.getD .null)) :=
      map_arranged (f := fun m => (m.1, m.2.toTree?.getD .null)) (fun _ => rfl) entries
    rw [normalize_obj, ← hentries, toTree?_obj, toTree?_obj, Option.map_some, Tree.canonical, reorder_obj,
      hwritten _ fun m hm => hdefined m ((arranged_perm localeCompare entries).mem_iff.mp hm), hmap,
      ← hwritten entries hdefined, hentries, List.filterMap_filterMap, List.map_filterMap]
    refine congrArg (some ∘ Tree.obj ∘ arranged localeCompare) (List.filterMap_congr fun m hm => ?_)
    by_cases hundefined : m.2 = .undefined
    · have hnone : normalizedEntry localeCompare m = none := by rw [normalizedEntry, hundefined]
      simp only [hnone, Option.bind_none, writtenMember, hundefined]
      rfl
    · simp only [normalizedEntry_of_ne hundefined, Option.bind_some, writtenMember, ih m hm, Option.map_map]
      rfl

/-! ## Normalizing twice -/

theorem distinguished_of_nodup [LawfulEqCmp localeCompare] {keys : List String} (h : keys.Nodup) :
    Distinguished localeCompare keys := ⟨h, fun _ _ _ _ _ _ heq => LawfulEqCmp.eq_of_compare heq⟩

theorem normalize_normalize [TransCmp localeCompare] [LawfulEqCmp localeCompare] {v : JsValue} (h : v.UniqueKeys) :
    normalizeForFingerprint localeCompare (normalizeForFingerprint localeCompare v) =
      normalizeForFingerprint localeCompare v := by
  induction v with
  | undefined | null | bool | num | str => rfl
  | arr items ih =>
    rw [normalize_arr, normalize_arr, List.map_map]
    exact congrArg JsValue.arr (List.map_congr_left fun v hv => ih v hv (uniqueKeys_arr.mp h v hv))
  | obj members ih =>
    obtain ⟨hnodup, hvalues⟩ := uniqueKeys_obj.mp h
    set entries := members.filterMap (normalizedEntry localeCompare) with hentries
    have hkept : (arranged localeCompare entries).filterMap (normalizedEntry localeCompare) =
        arranged localeCompare entries := by
      refine (List.filterMap_congr fun m hm => ?_).trans List.filterMap_some
      obtain ⟨m₀, hm₀, hsome⟩ := List.mem_filterMap.mp ((arranged_perm localeCompare entries).mem_iff.mp hm)
      obtain ⟨hne, rfl⟩ := normalizedEntry_eq_some hsome
      rw [normalizedEntry_of_ne (mt normalize_eq_undefined.mp hne), ih m₀ hm₀ (hvalues m₀ hm₀)]
    have hkeys : ((arranged localeCompare entries).map Prod.fst).Nodup :=
      ((arranged_perm localeCompare entries).map Prod.fst).nodup_iff.mpr ((map_fst_normalizedEntry members).nodup hnodup)
    rw [normalize_obj, ← hentries, normalize_obj, hkept,
      arranged_eq _ _ (arranged_perm localeCompare entries) (distinguished_of_nodup hkeys)]

/-! ## Fingerprints -/

/-- A value of a program: no object has a key twice. -/
abbrev Value := { v : JsValue // v.UniqueKeys }

def fingerprint (localeCompare : String → String → Ordering) (v : Value) : Option String :=
  stringify (normalizeForFingerprint localeCompare v.1)

theorem written_of_canonical {a b : Value}
    (h : a.1.toTree?.map (Tree.canonical localeCompare) = b.1.toTree?.map (Tree.canonical localeCompare)) :
    a.1.written = b.1.written := by
  unfold JsValue.written
  cases ha : a.1.toTree? with
  | none =>
    rw [ha, Option.map_none, eq_comm, Option.map_eq_none_iff] at h
    rw [h]
  | some t =>
    rw [ha, Option.map_some, eq_comm, Option.map_eq_some_iff] at h
    obtain ⟨t', hb, hsame⟩ := h
    rw [hb]
    exact congrArg some (sameValue_of_canonical (uniqueKeys_toTree? a.2 ha) (uniqueKeys_toTree? b.2 hb) hsame.symm)

theorem canonical_of_written [TransCmp localeCompare] [LawfulEqCmp localeCompare] {a b : Value}
    (h : a.1.written = b.1.written) :
    a.1.toTree?.map (Tree.canonical localeCompare) = b.1.toTree?.map (Tree.canonical localeCompare) := by
  unfold JsValue.written at h
  cases ha : a.1.toTree? with
  | none =>
    rw [ha, Option.map_none, eq_comm, Option.map_eq_none_iff] at h
    rw [h]
  | some t =>
    rw [ha, Option.map_some, eq_comm, Option.map_eq_some_iff] at h
    obtain ⟨t', hb, hsame⟩ := h
    have hdistinguished : t.Everywhere (Distinguished localeCompare) :=
      everywhere_mono (fun _ h => distinguished_of_nodup h) (uniqueKeys_toTree? a.2 ha)
    rw [hb]
    exact congrArg some (canonical_of_sameValue hdistinguished hsame.symm)

theorem fingerprint_eq {a b : Value} : fingerprint localeCompare a = fingerprint localeCompare b ↔
    a.1.toTree?.map (Tree.canonical localeCompare) = b.1.toTree?.map (Tree.canonical localeCompare) := by
  have htext : Function.Injective fun t : Tree => String.ofList t.text := fun t t' h =>
    text_injective (String.ofList_injective h)
  rw [fingerprint, fingerprint, stringify, stringify, toTree?_normalize, toTree?_normalize,
    (Option.map_injective htext).eq_iff]

/-- Whatever the comparison, values with one fingerprint are the same. -/
theorem same_of_fingerprint {a b : Value} (h : fingerprint localeCompare a = fingerprint localeCompare b) :
    Same true a.1 b.1 := same_of_written a.2 b.2 (written_of_canonical (fingerprint_eq.mp h))

theorem fingerprint_eq_iff [TransCmp localeCompare] [LawfulEqCmp localeCompare] (a b : Value) :
    fingerprint localeCompare a = fingerprint localeCompare b ↔ Same true a.1 b.1 :=
  ⟨same_of_fingerprint, fun h => fingerprint_eq.mpr (canonical_of_written (written_of_same h a.2 b.2))⟩

/-- For a comparison of keys that is a total order: fingerprints are equal exactly for values that are the same as
written, normalizing twice is normalizing once, and a request is taken for the one that is stored, or refused, by that. -/
theorem fingerprints_canonical [TransCmp localeCompare] [LawfulEqCmp localeCompare] (a b : Value) :
    (fingerprint localeCompare a = fingerprint localeCompare b ↔ Same true a.1 b.1) ∧
    normalizeForFingerprint localeCompare (normalizeForFingerprint localeCompare a.1) =
      normalizeForFingerprint localeCompare a.1 ∧
    ∀ {Row : Type} (idempotencyFingerprint : Row → Option String) (row : Row) (print : String),
      idempotencyFingerprint row = fingerprint localeCompare a → fingerprint localeCompare b = some print →
        (Same true a.1 b.1 → resolveIdempotencyReplay idempotencyFingerprint (some row) print = .ok (some row)) ∧
        (idempotencyFingerprint row ≠ none → ¬Same true a.1 b.1 →
          resolveIdempotencyReplay idempotencyFingerprint (some row) print =
            .error (.conflict "Idempotency key already used with different request payload")) := by
  refine ⟨fingerprint_eq_iff a b, normalize_normalize a.2, fun idempotencyFingerprint row print hstored hprint => ?_⟩
  rw [← @fingerprint_eq_iff localeCompare _ _ a b, hprint, ← hstored]
  constructor
  · intro hsame
    simp [resolveIdempotencyReplay, hsame]
  · intro hsome hother
    obtain ⟨stored, hrow⟩ := Option.ne_none_iff_exists'.mp hsome
    rw [hrow, Option.some_inj] at hother
    simp [resolveIdempotencyReplay, hrow, hother]

/-! ## Transfer batches -/

theorem same_externalId {b : Bool} {s s' : Option String} :
    Same b (orNull (s.map .str)) (orNull (s'.map .str)) ↔ s = s' := by
  cases s <;> cases s' <;> simp [orNull, Same.refl]

theorem same_recipient {b : Bool} {r r' : TransferBatchFingerprintRecipientInput} : Same b r.value r'.value ↔ r = r' := by
  refine ⟨fun h => ?_, fun h => h ▸ .refl _⟩
  have hproperty := same_obj.mp h
  have hexternal := same_externalId.mp (hproperty "externalId")
  have hcounterparty := same_str.mp (hproperty "counterpartyId")
  have haccount := same_str.mp (hproperty "counterpartyAccountId")
  have haddress := same_str.mp (hproperty "destinationAddress")
  have hamount := same_str.mp (hproperty "amount")
  cases r
  cases r'
  simp_all

theorem itemAt_recipient {b : Bool} {recipients : List TransferBatchFingerprintRecipientInput} {i : Nat}
    (hi : i < recipients.length) :
    itemAt b (recipients.map TransferBatchFingerprintRecipientInput.value) i = recipients[i].value := by
  rw [itemAt, List.getD_eq_getElem?_getD, List.getElem?_map, List.getElem?_eq_getElem hi]
  rfl

theorem same_recipients {b : Bool} {l l' : List TransferBatchFingerprintRecipientInput} :
    Same b (.arr (l.map TransferBatchFingerprintRecipientInput.value))
      (.arr (l'.map TransferBatchFingerprintRecipientInput.value)) ↔ l = l' := by
  refine ⟨fun h => ?_, fun h => h ▸ .refl _⟩
  obtain ⟨hlength, hitems⟩ := same_arr.mp h
  rw [List.length_map, List.length_map] at hlength
  refine List.ext_getElem hlength fun i hi hi' => ?_
  have hitem := hitems i
  rw [itemAt_recipient hi, itemAt_recipient hi'] at hitem
  exact same_recipient.mp hitem

/-- The options as the fingerprint reads them. -/
def TransferBatchFingerprintInput.optionsValue (input : TransferBatchFingerprintInput) : JsValue :=
  orNull (input.options.map fun options => .obj options.1)

theorem TransferBatchFingerprintInput.unique (input : TransferBatchFingerprintInput) : input.value.UniqueKeys := by
  have hrecipient (r : TransferBatchFingerprintRecipientInput) : r.value.UniqueKeys := by
    unfold TransferBatchFingerprintRecipientInput.value
    cases r.externalId <;> simp [orNull, JsValue.UniqueKeys, MembersUnique]
  have hoptions : input.optionsValue.UniqueKeys := by
    unfold optionsValue
    cases input.options with
    | none => trivial
    | some options => exact options.2
  simp only [TransferBatchFingerprintInput.value, uniqueKeys_obj, List.forall_mem_cons]
  exact ⟨by simp, trivial, trivial, trivial, uniqueKeys_arr.mpr (List.forall_mem_map.mpr fun r _ => hrecipient r), hoptions,
    by simp⟩

/-- Two batches have one fingerprint if they move the same to the same recipients in one order, with options that are
the same as written. -/
theorem buildTransferBatchFingerprint_eq_iff [TransCmp localeCompare] [LawfulEqCmp localeCompare]
    (i j : TransferBatchFingerprintInput) :
    buildTransferBatchFingerprint localeCompare i = buildTransferBatchFingerprint localeCompare j ↔
      i.sourceAddress = j.sourceAddress ∧ i.token = j.token ∧ i.recipients = j.recipients ∧
        Same true i.optionsValue j.optionsValue := by
  have hprint := @fingerprint_eq_iff localeCompare _ _ ⟨i.value, i.unique⟩ ⟨j.value, j.unique⟩
  refine hprint.trans ⟨fun h => ?_, fun ⟨hsource, htoken, hrecipients, hoptions⟩ => same_obj.mpr fun key => ?_⟩
  · have hproperty := same_obj.mp h
    exact ⟨same_str.mp (hproperty "sourceAddress"), same_str.mp (hproperty "token"),
      same_recipients.mp (hproperty "recipients"), hproperty "options"⟩
  · by_cases hkey : key = "options"
    · subst hkey
      exact hoptions
    · have hsame : propertyAt
          [("scope", .str "payment_transfer_batch"), ("sourceAddress", .str i.sourceAddress), ("token", .str i.token),
            ("recipients", .arr (i.recipients.map TransferBatchFingerprintRecipientInput.value)),
            ("options", i.optionsValue)] key =
          propertyAt
          [("scope", .str "payment_transfer_batch"), ("sourceAddress", .str j.sourceAddress), ("token", .str j.token),
            ("recipients", .arr (j.recipients.map TransferBatchFingerprintRecipientInput.value)),
            ("options", j.optionsValue)] key := by
        rw [hsource, htoken, hrecipients]
        simp [propertyAt, valueAt, List.find?_cons, Ne.symm hkey]
      exact hsame ▸ .refl _

/-- The two are not the same, but the serializer writes both items as `null`. -/
theorem undefined_item_is_null :
    fingerprint compare ⟨.arr [.undefined], by simp [JsValue.UniqueKeys, ItemsUnique]⟩ =
      fingerprint compare ⟨.arr [.null], by simp [JsValue.UniqueKeys, ItemsUnique]⟩ ∧
    ¬Same false (.arr [.undefined]) (.arr [.null]) := by
  refine ⟨rfl, fun h => ?_⟩
  cases h with
  | arr hlength hitems => cases hitems 0

/-- Members in another order, and one that is undefined or missing. -/
theorem reordered_request_replays :
    fingerprint compare ⟨.obj [("b", .str "1"), ("a", .null), ("c", .undefined)],
        by simp [JsValue.UniqueKeys, MembersUnique]⟩ =
      fingerprint compare ⟨.obj [("a", .null), ("b", .str "1")], by simp [JsValue.UniqueKeys, MembersUnique]⟩ := by
  refine (fingerprints_canonical _ _).1.mpr (.obj fun key => ?_)
  have hsame : propertyAt [("b", .str "1"), ("a", .null), ("c", .undefined)] key =
      propertyAt [("a", .null), ("b", .str "1")] key := by
    by_cases ha : key = "a" <;> by_cases hb : key = "b" <;> by_cases hc : key = "c" <;>
      simp_all [propertyAt, valueAt, eq_comm]
  rw [hsame]
  exact .refl _

end Sdp.Idempotency
