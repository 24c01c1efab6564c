import Mathlib.Data.String.Basic
import Sdp.Code.KeysetLists

/-!
# What a client reads that follows the cursors

A cursor is read back exactly when its value is there and has no separator, and its id is there. So a client that goes
on with the cursor of each page makes a walk over the rows it may see: no request of it is refused, no row comes twice,
and no row that is there all along is missed.
-/

open Sdp.Earn Sdp.Lib

namespace Sdp.Lists

/-! ## Cursors -/

theorem rdropWhile_replaceAll {a b : Char} (ha : a ≠ '=') (hb : b ≠ '=') (text : List Char) :
    (replaceAll a b text).rdropWhile (· = '=') = replaceAll a b (text.rdropWhile (· = '=')) := by
  have hpredicate : ((fun c : Char => decide (c = '=')) ∘ fun c => if c = a then b else c) =
      fun c => decide (c = '=') := by
    funext c
    rw [Function.comp_apply, decide_eq_decide]
    split
    · next heq =>
      subst heq
      exact ⟨fun h => absurd h hb, fun h => absurd h ha⟩
    · exact Iff.rfl
  rw [replaceAll, List.rdropWhile, ← List.map_reverse, List.dropWhile_map, hpredicate, ← List.map_reverse]
  rfl

theorem replaceAll_digits {digits : List Nat} (h : ∀ n ∈ digits, n < 64) :
    replaceAll '_' '/' (replaceAll '-' '+' (replaceAll '/' '_' (replaceAll '+' '-' (digits.map Base64.digit)))) =
      digits.map Base64.digit := by
  simp only [replaceAll, List.map_map]
  refine List.map_congr_left fun n hn => ?_
  have hlt := h n hn
  interval_cases n <;> rfl

/-- A digit after the replacements of the encoder. -/
def isUrlSafe (c : Char) : Bool := c.isAlphanum || c = '-' || c = '_'

theorem isUrlSafe_digits {digits : List Nat} (h : ∀ n ∈ digits, n < 64) :
    ∀ c ∈ replaceAll '/' '_' (replaceAll '+' '-' (digits.map Base64.digit)), isUrlSafe c = true := by
  intro c hc
  simp only [replaceAll, List.map_map, List.mem_map] at hc
  obtain ⟨n, hn, rfl⟩ := hc
  have hlt := h n hn
  interval_cases n <;> rfl

theorem toNat_lt {text : List Char} (h : text.all isByte = true) : ∀ b ∈ text.map Char.toNat, b < 256 := by
  intro b hb
  obtain ⟨c, hc, rfl⟩ := List.mem_map.mp hb
  exact of_decide_eq_true (List.all_eq_true.mp h c hc)

theorem encode_eq_some {value id text : String} (h : encodeKeysetCursor value id = some text) :
    (value.toList ++ '|' :: id.toList).all isByte = true ∧
      text.toList = replaceAll '/' '_' (replaceAll '+' '-'
        ((Base64.sextets ((value.toList ++ '|' :: id.toList).map Char.toNat)).map Base64.digit)) := by
  rw [encodeKeysetCursor, btoa] at h
  split at h
  · next hbytes =>
    obtain rfl := Option.some.inj h
    refine ⟨hbytes, ?_⟩
    rw [String.toList_ofList, rdropWhile_replaceAll (by decide) (by decide), rdropWhile_replaceAll (by decide) (by decide),
      Base64.rdropWhile_encode (toNat_lt hbytes)]
  · cases h

theorem encode_isSome (value id : String) :
    (encodeKeysetCursor value id).isSome = (value.toList ++ '|' :: id.toList).all isByte := by
  rw [encodeKeysetCursor, btoa]
  split
  · next h => rw [h]; rfl
  · next h => rw [Bool.eq_false_of_not_eq_true h]; rfl

theorem decode_of_encode {value id text : String} (h : encodeKeysetCursor value id = some text) :
    decodeKeysetCursor text = splitDecoded (value.toList ++ '|' :: id.toList) := by
  obtain ⟨hbytes, htext⟩ := encode_eq_some h
  have hlt := toNat_lt hbytes
  rw [decodeKeysetCursor, htext, replaceAll_digits (Base64.sextets_lt hlt), atob, Base64.decode_digits hlt]
  simp [Function.comp_def]

theorem splitDecoded_eq_some {value id : String} :
    splitDecoded (value.toList ++ '|' :: id.toList) = some ⟨value, id⟩ ↔
      value ≠ "" ∧ '|' ∉ value.toList ∧ id ≠ "" := by
  by_cases hmem : '|' ∈ value.toList
  · -- The separator is found in the value, which is cut there.
    have hindex : (value.toList ++ '|' :: id.toList).idxOf '|' < value.toList.length := by
      rw [List.idxOf_append_of_mem hmem]
      exact List.idxOf_lt_length_of_mem hmem
    refine ⟨fun h => ?_, fun h => absurd hmem h.2.1⟩
    rw [splitDecoded] at h
    split at h
    · cases h
    · have hvalue := congrArg (fun cursor => cursor.value.toList.length) (Option.some.inj h)
      simp only [String.toList_ofList, List.length_take, List.length_append] at hvalue
      omega
  · have hindex : (value.toList ++ '|' :: id.toList).idxOf '|' = value.toList.length := by
      rw [List.idxOf_append_of_notMem hmem, List.idxOf_cons_self, Nat.add_zero]
    have hempty {text : String} : text ≠ "" ↔ text.toList.length ≠ 0 := by
      rw [Ne, Ne, List.length_eq_zero_iff, String.toList_eq_nil_iff]
    rw [splitDecoded, hindex, hempty, hempty]
    split
    · next h =>
      refine ⟨fun h => (by cases h), fun hne => ?_⟩
      simp only [List.length_append, List.length_cons] at h
      omega
    · next h =>
      refine iff_of_true ?_ ⟨fun h0 => h (.inl h0), hmem, fun h0 => h (.inr (by simp [h0]))⟩
      rw [List.take_left, List.drop_append, Nat.add_sub_cancel_left, List.drop_eq_nil_of_le (Nat.le_succ _)]
      simp

/-- Only bytes can be encoded. What is encoded is safe in a URL, and read back unless a part is missing or the value has a
separator. -/
theorem cursor_read_back (value id : String) :
    ((encodeKeysetCursor value id).isSome = (value.toList ++ '|' :: id.toList).all isByte) ∧
      ∀ text, encodeKeysetCursor value id = some text →
        (∀ c ∈ text.toList, isUrlSafe c = true) ∧
          (decodeKeysetCursor text = some ⟨value, id⟩ ↔ value ≠ "" ∧ '|' ∉ value.toList ∧ id ≠ "") := by
  refine ⟨encode_isSome value id, fun text h => ?_⟩
  obtain ⟨hbytes, htext⟩ := encode_eq_some h
  rw [htext, decode_of_encode h]
  exact ⟨isUrlSafe_digits (Base64.sextets_lt (toNat_lt hbytes)), splitDecoded_eq_some⟩

theorem short_cursor_read_back : decodeKeysetCursor "YXxi" = some ⟨"a", "b"⟩ := by
  have hencoded : encodeKeysetCursor "a" "b" = some "YXxi" := by decide
  exact (((cursor_read_back "a" "b").2 _ hencoded).2).mpr ⟨by decide, by decide, by decide⟩

/-! ## Pages -/

/-- What the writers give every row: a timestamp and an id that the lists take back. -/
structure KeysetCursor.Listable (schema : KeysetCursor → Bool) (cursor : KeysetCursor) : Prop where
  value_ne : cursor.value ≠ ""
  no_separator : '|' ∉ cursor.value.toList
  id_ne : cursor.id ≠ ""
  bytes : (cursor.value.toList ++ '|' :: cursor.id.toList).all isByte = true
  accepted : schema cursor = true

/-- A table, whose primary key is the id, and whose rows have cursors that their endpoint takes back: timestamps are what
`sdp_iso_now()` and `toISOString` write, with milliseconds and in UTC, and ids are a prefix in small letters before a UUID
(`earn_movement_`, `earn_vault_movement_`, `earn_position_`, `pce_`). -/
structure CursorTable {ρ : Type} (schema : KeysetCursor → Bool) (cursor : ρ → KeysetCursor) where
  rows : List ρ
  ids_unique : (rows.map fun row => (cursor row).id).Nodup
  listable : ∀ row ∈ rows, (cursor row).Listable schema

theorem parseBefore_none (message : String) (schema : KeysetCursor → Bool) : parseBefore message schema none = .ok none := rfl

theorem KeysetCursor.Listable.sent {schema : KeysetCursor → Bool} {cursor : KeysetCursor} (h : cursor.Listable schema)
    (message : String) :
    ∃ text, encodeKeysetCursor cursor.value cursor.id = some text ∧
      parseBefore message schema (some text) = .ok (some cursor) := by
  obtain ⟨text, htext⟩ := Option.isSome_iff_exists.mp ((encode_isSome cursor.value cursor.id).trans h.bytes)
  refine ⟨text, htext, ?_⟩
  have hdecoded : decodeKeysetCursor text = some cursor := by
    rw [decode_of_encode htext]
    exact splitDecoded_eq_some.mpr ⟨h.value_ne, h.no_separator, h.id_ne⟩
  rw [parseBefore, hdecoded, Option.filter_some, if_pos h.accepted]

section

variable {κ : Type} {collate : String → κ}
variable {σ ρ : Type} {message : String} {schema : KeysetCursor → Bool} {cursor : ρ → KeysetCursor}

theorem key_injective (h : Function.Injective collate) :
    Function.Injective (KeysetCursor.key collate) := by
  rintro ⟨value, id⟩ ⟨value', id'⟩ heq
  obtain ⟨hvalue, hid⟩ := Prod.ext_iff.mp (toLex.injective heq)
  obtain rfl : value = value' := h hvalue
  obtain rfl : id = id' := h hid
  rfl

theorem keys_nodup (h : Function.Injective collate) {rows : List ρ} (hids : (rows.map fun row => (cursor row).id).Nodup) :
    (rows.map fun row => (cursor row).key collate).Nodup := by
  have hcursors : (rows.map cursor).Nodup := by
    refine List.Nodup.of_map (·.id) ?_
    rwa [List.map_map]
  have hkeys := hcursors.map (key_injective h)
  rwa [List.map_map] at hkeys

theorem toPage_eq (collate : String → κ) (message : String) {result : List ρ × Bool}
    (h : ∀ row ∈ result.1, (cursor row).Listable schema) :
    ∃ page, toPage cursor result = .ok page ∧ page.rows = result.1 ∧ page.hasMore = result.2 ∧
      (Keyset.next (fun row => (cursor row).key collate) result = none → page.nextCursor = none) ∧
      ∀ key, Keyset.next (fun row => (cursor row).key collate) result = some key →
        ∃ text last, page.nextCursor = some text ∧ parseBefore message schema (some text) = .ok (some last) ∧
          last.key collate = key := by
  rw [toPage, Keyset.next]
  cases hmore : result.2 with
  | false => exact ⟨_, rfl, rfl, rfl, fun _ => rfl, fun _ hkey => by cases hkey⟩
  | true =>
    simp only [↓reduceIte]
    cases hlast : result.1.getLast? with
    | none => exact ⟨_, rfl, rfl, rfl, fun _ => rfl, fun _ hkey => by cases hkey⟩
    | some last =>
      obtain ⟨text, htext, hparse⟩ := (h last (List.mem_of_getLast? hlast)).sent message
      simp only [htext]
      refine ⟨_, rfl, rfl, rfl, fun hkey => (by cases hkey), fun key hkey => ?_⟩
      exact ⟨text, cursor last, rfl, hparse, Option.some.inj hkey⟩

variable [LinearOrder κ]

/-- An endpoint whose query is a page of these rows. -/
def PagesOf (collate : String → κ) (message : String) (schema : KeysetCursor → Bool) (cursor : ρ → KeysetCursor)
    (limit : Nat) (rows : σ → List ρ) (request : σ → Option String → Except ListError (Page ρ)) : Prop :=
  ∀ tables before, request tables before = listPage message schema cursor before fun before =>
    Keyset.page (fun row => (cursor row).key collate) (rows tables) (before.map (·.key collate)) limit

/-- The client makes a walk: no request is refused, and each page is that of the walk. -/
theorem readPages_eq {limit : Nat} {rows : σ → List ρ} {request : σ → Option String → Except ListError (Page ρ)}
    (hlists : PagesOf collate message schema cursor limit rows request) {tables : List σ}
    (h : ∀ t ∈ tables, ∀ row ∈ rows t, (cursor row).Listable schema) {before : Option String}
    {start : Option KeysetCursor} (hstart : parseBefore message schema before = .ok start) :
    ∃ pages, readPages request tables before = .ok pages ∧
      pages.map (fun page => (page.rows, page.hasMore)) =
        Keyset.walk (fun row => (cursor row).key collate) limit (tables.map rows) (start.map (·.key collate)) := by
  induction tables generalizing before start with
  | nil => exact ⟨[], rfl, rfl⟩
  | cons t later ih =>
    have hlistable : ∀ row ∈ (Keyset.page (fun row => (cursor row).key collate) (rows t) (start.map (·.key collate))
        limit).1, (cursor row).Listable schema := by
      intro row hrow
      rw [Keyset.page_eq] at hrow
      exact h t List.mem_cons_self row (Keyset.mem_behind.mp (List.mem_of_mem_take hrow)).1
    have hpage := toPage_eq collate message hlistable
    obtain ⟨page, hok, hrows, hmore, hlast, hnext⟩ := hpage
    have hrequest : request t before = .ok page := by
      rw [hlists, listPage, hstart]
      exact hok
    rw [readPages, hrequest, List.map_cons, Keyset.walk]
    cases hkey : Keyset.next (fun row => (cursor row).key collate)
        (Keyset.page (fun row => (cursor row).key collate) (rows t) (start.map (·.key collate)) limit) with
    | none =>
      refine ⟨[page], ?_, ?_⟩
      · simp only [Except.bind, hlast hkey]
      · rw [List.map_singleton, hrows, hmore]
    | some key =>
      obtain ⟨text, last, htext, hparse, rfl⟩ := hnext key hkey
      obtain ⟨pages, hpages, hwalk⟩ := ih (fun t' ht' => h t' (List.mem_cons_of_mem _ ht')) hparse
      refine ⟨page :: pages, ?_, ?_⟩
      · simp only [Except.bind, htext, hpages, Except.map]
      · rw [List.map_cons, hrows, hmore, hwalk]
        rfl

/-- What a client reads of lists that may change between its requests. -/
structure Reads (key : ρ → κ) (limit : Nat) (lists : List (List ρ)) (pages : List (Page ρ)) : Prop where
  sorted : (pages.flatMap (·.rows)).Pairwise fun a b => key b < key a
  present : ∀ row ∈ pages.flatMap (·.rows), ∃ rows ∈ lists, row ∈ rows
  complete : (∃ page ∈ pages, page.hasMore = false) → ∀ row, (∀ rows ∈ lists, row ∈ rows) →
    row ∈ pages.flatMap (·.rows)
  full : ∀ page ∈ pages, page.hasMore = true → page.rows.length = limit

theorem listed_pages (pages : List (Page ρ)) :
    Keyset.listed (pages.map fun page => (page.rows, page.hasMore)) = pages.flatMap (·.rows) := by
  rw [Keyset.listed, List.flatMap_map]

theorem ended_pages {pages : List (Page ρ)} :
    Keyset.Ended (pages.map fun page => (page.rows, page.hasMore)) ↔ ∃ page ∈ pages, page.hasMore = false := by
  simp [Keyset.Ended]

theorem reads {limit : Nat} {rows : σ → List ρ} {request : σ → Option String → Except ListError (Page ρ)}
    (hlists : PagesOf collate message schema cursor limit rows request) (hcollate : Function.Injective collate)
    (hlimit : 0 < limit) {tables : List σ}
    (hids : ∀ t ∈ tables, ((rows t).map fun row => (cursor row).id).Nodup)
    (h : ∀ t ∈ tables, ∀ row ∈ rows t, (cursor row).Listable schema) :
    ∃ pages, readPages request tables none = .ok pages ∧
      Reads (fun row => (cursor row).key collate) limit (tables.map rows) pages := by
  obtain ⟨pages, hpages, hwalk⟩ := readPages_eq hlists h (parseBefore_none message schema)
  have hnodup : ∀ list ∈ tables.map rows, (list.map fun row => (cursor row).key collate).Nodup := by
    intro list hlist
    obtain ⟨t, ht, rfl⟩ := List.mem_map.mp hlist
    exact keys_nodup hcollate (hids t ht)
  refine ⟨pages, hpages, ⟨?_, ?_, ?_, ?_⟩⟩
  · rw [← listed_pages, hwalk]
    exact Keyset.listed_sorted hnodup none
  · intro row hrow
    rw [← listed_pages, hwalk] at hrow
    exact (Keyset.mem_listed hrow).1
  · intro hended row hrow
    rw [← ended_pages, hwalk] at hended
    rw [← listed_pages, hwalk]
    exact Keyset.mem_listed_of_ended hlimit hnodup hended hrow (by simp)
  · intro page hpage hmore
    have hmem : (page.rows, page.hasMore) ∈ pages.map fun page => (page.rows, page.hasMore) :=
      List.mem_map.mpr ⟨page, hpage, rfl⟩
    rw [hwalk] at hmem
    exact Keyset.length_of_more hmem hmore

/-- Enough requests on rows that do not change give all of them. -/
theorem reads_all {limit : Nat} {rows : σ → List ρ} {request : σ → Option String → Except ListError (Page ρ)}
    (hlists : PagesOf collate message schema cursor limit rows request) (hcollate : Function.Injective collate)
    (hlimit : 0 < limit) {tables : σ} {n : Nat} (hn : (rows tables).length ≤ n * limit) (hpos : 0 < n)
    (hids : ((rows tables).map fun row => (cursor row).id).Nodup)
    (h : ∀ row ∈ rows tables, (cursor row).Listable schema) :
    ∃ pages, readPages request (List.replicate n tables) none = .ok pages ∧
      (∃ page ∈ pages, page.hasMore = false) ∧
      pages.flatMap (·.rows) = Keyset.descending (fun row => (cursor row).key collate) (rows tables) := by
  have hlistable : ∀ t ∈ List.replicate n tables, ∀ row ∈ rows t, (cursor row).Listable schema := by
    intro t ht
    rw [List.eq_of_mem_replicate ht]
    exact h
  obtain ⟨pages, hpages, hwalk⟩ := readPages_eq hlists hlistable (parseBefore_none message schema)
  have hbehind : Keyset.behind (fun row => (cursor row).key collate) none (rows tables) =
      Keyset.descending (fun row => (cursor row).key collate) (rows tables) := by
    simp [Keyset.behind]
  have hlength : (Keyset.behind (fun row => (cursor row).key collate) none (rows tables)).length ≤ n * limit := by
    rw [hbehind, (Keyset.descending_perm _).length_eq]
    exact hn
  have hall := Keyset.walk_replicate hlimit (keys_nodup hcollate hids) hlength hpos
  rw [List.map_replicate, Option.map_none] at hwalk
  rw [← hwalk, ended_pages, listed_pages, hbehind] at hall
  exact ⟨pages, hpages, hall⟩

end

/-! ## The endpoints -/

section

variable {κ : Type} [LinearOrder κ] {collate : String → κ} {isDatetime : String → Bool}

theorem page_nil {ρ : Type} (key : ρ → κ) (before : Option κ) (limit : Nat) :
    Keyset.page key [] before limit = ([], false) := by
  simp [Keyset.page_eq, Keyset.behind, Keyset.descending]

/-- The feed of movements shows the vault rows that the list of their direction shows, and no others. -/
theorem seesMovement_vault (caller : Caller) {row : MovementRow} (h : row.executionModel = .vaultDirect) :
    caller.seesMovement row = caller.ownsVaultMovement row.direction row := by
  rw [Bool.eq_iff_iff]
  cases hwallets : caller.custodyWalletIds with
  | nil => simp [Caller.seesMovement, Caller.ownsVaultMovement, h, hwallets]
  | cons wallet wallets =>
    simp [Caller.seesMovement, Caller.ownsVaultMovement, h, hwallets]
    tauto

theorem pagesOf_movements {σ : Type} (isDatetime : String → Bool) (rows : σ → List MovementRow) (caller : Caller)
    (query : MovementsQuery) :
    PagesOf collate "Invalid earn movement pagination cursor" (movementCursorSchema isDatetime) MovementRow.cursor
      query.limit
      (fun tables => (rows tables).filter fun row => caller.seesMovement row && query.selects row)
      (fun tables => listEarnMovements isDatetime collate caller query (rows tables)) :=
  fun _ _ => rfl

theorem pagesOf_vaultMovements {σ : Type} (rows : σ → List MovementRow) (message : String) (direction : Direction)
    (caller : Caller) (query : VaultMovementsQuery) (h : query.requestId = none) :
    PagesOf collate message (vaultMovementCursorSchema isDatetime) MovementRow.cursor query.limit
      (fun tables => (rows tables).filter fun row =>
        caller.ownsVaultMovement direction row && query.selects direction row)
      (fun tables => listEarnVaultMovements isDatetime collate message direction caller query (rows tables)) := by
  intro tables before
  simp only [listEarnVaultMovements, h]
  congr 1
  funext before
  split
  · next hwallets =>
    have hnone : ((rows tables).filter fun row =>
        caller.ownsVaultMovement direction row && query.selects direction row) = [] := by
      simp [Caller.ownsVaultMovement, hwallets]
    rw [hnone, page_nil]
  · rfl

theorem pagesOf_positions (caller : Caller) (limit : Nat) :
    PagesOf collate "Invalid vault position pagination cursor" (vaultMovementCursorSchema isDatetime) PositionRow.cursor limit
      (fun tables : CursorTable (vaultMovementCursorSchema isDatetime) PositionRow.cursor × List MovementRow =>
        tables.1.rows.filter (caller.seesPosition tables.2))
      (fun tables => listEarnVaultPositions collate isDatetime caller limit (tables.1.rows, tables.2)) := by
  intro tables before
  simp only [listEarnVaultPositions]
  congr 1
  funext before
  split
  · next hwallets =>
    have hnone : tables.1.rows.filter (caller.seesPosition tables.2) = [] := by
      simp [Caller.seesPosition, hwallets]
    rw [hnone, page_nil]
  · rfl

theorem isBefore_eq (hcollate : Function.Injective collate) (cursor : KeysetCursor) (row : EventRow) :
    row.isBefore collate cursor = decide (row.cursor.key collate < cursor.key collate) := by
  have hvalue : (row.occurredAt = cursor.value) = (collate row.occurredAt = collate cursor.value) :=
    propext hcollate.eq_iff.symm
  simp [EventRow.isBefore, KeysetCursor.key, EventRow.cursor, Prod.Lex.toLex_lt_toLex, hvalue]

theorem listEvents_eq (hcollate : Function.Injective collate) (selects : EventRow → Bool) (requested : Nat)
    (rows : List EventRow) (before : Option KeysetCursor) :
    listEvents collate selects requested rows before =
      Keyset.page (·.cursor.key collate) (rows.filter selects) (before.map (·.key collate)) (min (max requested 1) 100) := by
  have hselected : (rows.filter fun row => selects row && before.all (row.isBefore collate ·)) =
      (rows.filter selects).filter fun row => (before.map (·.key collate)).all (row.cursor.key collate < ·) := by
    rw [List.filter_filter]
    refine List.filter_congr fun row _ => ?_
    rw [Bool.and_comm, Option.all_map]
    simp only [isBefore_eq hcollate]
  rw [listEvents, Keyset.page, Keyset.behind, ← hselected]
  simp only [Prod.mk.injEq, and_true, decide_eq_true_eq]
  split
  · rfl
  · next hmore => rw [List.take_of_length_le (Nat.le_of_not_lt hmore)]

/-- What a caller is listed of a channel. -/
def EventViewer.channelRows (viewer : EventViewer) (instanceId channelId : String) (query : EventsQuery)
    (rows : List EventRow) : List EventRow :=
  if viewer.admits channelId then
    rows.filter fun row => row.instanceId = instanceId && viewer.seesInChannel channelId row && query.selects row
  else []

theorem pagesOf_channelEvents (hcollate : Function.Injective collate) (instanceId channelId : String)
    (viewer : EventViewer) (query : EventsQuery) :
    PagesOf collate "Invalid pagination cursor" (fun _ => true) EventRow.cursor (min (max query.limit 1) 100)
      (fun table : CursorTable (fun _ => true) EventRow.cursor => viewer.channelRows instanceId channelId query table.rows)
      (fun table => listChannelEvents collate instanceId channelId viewer query table.rows) := by
  intro table before
  simp only [listChannelEvents, EventViewer.channelRows]
  congr 1
  funext before
  split
  · rw [listByChannel, listEvents_eq hcollate]
  · rw [page_nil]

theorem pagesOf_projectEvents (hcollate : Function.Injective collate) (organizationId projectId : String)
    (viewer : EventViewer) (query : EventsQuery) :
    PagesOf collate "Invalid pagination cursor" (fun _ => true) EventRow.cursor (min (max query.limit 1) 100)
      (fun table : CursorTable (fun _ => true) EventRow.cursor => table.rows.filter fun row =>
        row.organizationId = organizationId && row.projectId = projectId && viewer.seesInProject row && query.selects row)
      (fun table => listProjectEvents collate organizationId projectId viewer query table.rows) := by
  intro table before
  simp only [listProjectEvents]
  congr 1
  funext before
  cases viewer with
  | none =>
    have hnone : (table.rows.filter fun row => row.organizationId = organizationId && row.projectId = projectId &&
        EventViewer.none.seesInProject row && query.selects row) = [] := by
      simp [EventViewer.seesInProject]
    rw [hnone, page_nil]
  | all => exact listEvents_eq hcollate _ _ _ _
  | member channelIds userId => exact listEvents_eq hcollate _ _ _ _

/-! ## What clients read -/

section

variable {ρ : Type} {schema : KeysetCursor → Bool} {cursor : ρ → KeysetCursor}

theorem CursorTable.filter_ids (table : CursorTable schema cursor) (selects : ρ → Bool) :
    ((table.rows.filter selects).map fun row => (cursor row).id).Nodup :=
  table.ids_unique.sublist (List.filter_sublist.map _)

theorem CursorTable.filter_listable (table : CursorTable schema cursor) (selects : ρ → Bool) :
    ∀ row ∈ table.rows.filter selects, (cursor row).Listable schema :=
  fun row hrow => table.listable row (List.mem_of_mem_filter hrow)

end

theorem KeysetCursor.Listable.weaken {cursor : KeysetCursor} (h : cursor.Listable (vaultMovementCursorSchema isDatetime)) :
    cursor.Listable (movementCursorSchema isDatetime) :=
  { h with accepted := (Bool.and_eq_true_iff.mp h.accepted).1 }

/-- A query for everything. -/
def MovementsQuery.everything (limit : Nat) : MovementsQuery := ⟨limit, none, none, none, none, none, none⟩
def VaultMovementsQuery.everything (limit : Nat) : VaultMovementsQuery := ⟨limit, none, none⟩

/-- The shape of a timestamp. -/
def looksLikeDatetime (text : String) : Bool :=
  text.toList.length = 24 && text.toList.all fun c => c.isDigit || c ∈ ['-', ':', '.', 'T', 'Z']

def depositRow (id : String) : MovementRow where
  id := id
  organizationId := "org"
  projectId := some "project"
  environment := .production
  provider := "kamino"
  executionModel := .vaultDirect
  direction := .deposit
  positionId := "position"
  status := .confirmed
  sourceAddress := none
  destinationAddress := none
  custodyWalletId := some "wallet"
  requestId := id
  createdAt := "2026-08-18T12:34:56.789Z"

def depositor : Caller := ⟨"org", "project", .production, ["wallet"]⟩

theorem deposit_listable {id : String} (h : id = "earn_movement_1" ∨ id = "earn_movement_2") :
    (depositRow id).cursor.Listable (vaultMovementCursorSchema looksLikeDatetime) := by
  rcases h with rfl | rfl
  · exact ⟨by decide, by decide, by decide, by decide, by decide⟩
  · exact ⟨by decide, by decide, by decide, by decide, by decide⟩

theorem deposits_listable : ∀ row ∈ [depositRow "earn_movement_1", depositRow "earn_movement_2"],
    row.cursor.Listable (vaultMovementCursorSchema looksLikeDatetime) := by
  intro row hrow
  rcases List.mem_cons.mp hrow with rfl | hrow
  · exact deposit_listable (.inl rfl)
  · rw [List.mem_singleton.mp hrow]
    exact deposit_listable (.inr rfl)

theorem deposits_unique :
    ([depositRow "earn_movement_1", depositRow "earn_movement_2"].map fun row => row.cursor.id).Nodup := by
  decide

/-- A client that follows the cursors of the feed of movements, while movements come and change, is never refused. It reads
no movement twice, only ones that it may see and asked for, and at its end all of those that were there throughout. -/
theorem feed_is_read (hcollate : Function.Injective collate) (caller : Caller) (query : MovementsQuery)
    (hlimit : 0 < query.limit) (tables : List (CursorTable (movementCursorSchema isDatetime) MovementRow.cursor)) :
    ∃ pages, readPages (fun table : CursorTable (movementCursorSchema isDatetime) MovementRow.cursor =>
        listEarnMovements isDatetime collate caller query table.rows) tables none = .ok pages ∧
      Reads (fun row => row.cursor.key collate) query.limit
        (tables.map fun table => table.rows.filter fun row => caller.seesMovement row && query.selects row) pages :=
  reads (pagesOf_movements isDatetime CursorTable.rows caller query) hcollate hlimit (fun table _ => table.filter_ids _)
    (fun table _ => table.filter_listable _)

def depositFeed : CursorTable (movementCursorSchema looksLikeDatetime) MovementRow.cursor where
  rows := [depositRow "earn_movement_1", depositRow "earn_movement_2"]
  ids_unique := deposits_unique
  listable row hrow := (deposits_listable row hrow).weaken

theorem deposit_feed_is_read :
    ∃ pages, readPages (fun table : CursorTable (movementCursorSchema looksLikeDatetime) MovementRow.cursor =>
        listEarnMovements looksLikeDatetime (fun text => text) depositor (.everything 1) table.rows)
          [depositFeed, depositFeed] none = .ok pages ∧
      Reads (fun row => row.cursor.key fun text => text) 1 ([depositFeed, depositFeed].map fun table =>
        table.rows.filter fun row => depositor.seesMovement row && (MovementsQuery.everything 1).selects row) pages :=
  feed_is_read Function.injective_id depositor (.everything 1) Nat.one_pos _

/-- The lists of vault positions, likewise, while positions and movements change. -/
theorem positions_are_read (hcollate : Function.Injective collate) (caller : Caller) {limit : Nat} (hlimit : 0 < limit)
    (tables : List (CursorTable (vaultMovementCursorSchema isDatetime) PositionRow.cursor × List MovementRow)) :
    ∃ pages, readPages
        (fun tables : CursorTable (vaultMovementCursorSchema isDatetime) PositionRow.cursor × List MovementRow =>
          listEarnVaultPositions collate isDatetime caller limit (tables.1.rows, tables.2)) tables none = .ok pages ∧
      Reads (fun row => row.cursor.key collate) limit
        (tables.map fun tables => tables.1.rows.filter (caller.seesPosition tables.2)) pages :=
  reads (pagesOf_positions caller limit) hcollate hlimit (fun tables _ => tables.1.filter_ids _)
    (fun tables _ => tables.1.filter_listable _)

/-- The feeds of events, which take a limit from 1 to 100 whatever they are asked for. -/
theorem events_are_read (hcollate : Function.Injective collate) (viewer : EventViewer) (query : EventsQuery)
    (organizationId projectId instanceId channelId : String)
    (tables : List (CursorTable (fun _ => true) EventRow.cursor)) :
    (∃ pages, readPages (fun table : CursorTable (fun _ => true) EventRow.cursor =>
        listChannelEvents collate instanceId channelId viewer query table.rows) tables none = .ok pages ∧
      Reads (fun row => row.cursor.key collate) (min (max query.limit 1) 100)
        (tables.map fun table => viewer.channelRows instanceId channelId query table.rows) pages) ∧
    ∃ pages, readPages (fun table : CursorTable (fun _ => true) EventRow.cursor =>
        listProjectEvents collate organizationId projectId viewer query table.rows) tables none = .ok pages ∧
      Reads (fun row => row.cursor.key collate) (min (max query.limit 1) 100)
        (tables.map fun table => table.rows.filter fun row => row.organizationId = organizationId &&
          row.projectId = projectId && viewer.seesInProject row && query.selects row) pages := by
  have hlimit : 0 < min (max query.limit 1) 100 := by omega
  refine ⟨reads (pagesOf_channelEvents hcollate instanceId channelId viewer query) hcollate hlimit ?_ ?_,
    reads (pagesOf_projectEvents hcollate organizationId projectId viewer query) hcollate hlimit
      (fun table _ => table.filter_ids _) (fun table _ => table.filter_listable _)⟩
  · intro table _
    simp only [EventViewer.channelRows]
    split
    · exact table.filter_ids _
    · exact .nil
  · intro table _
    simp only [EventViewer.channelRows]
    split
    · exact table.filter_listable _
    · simp

def connectedRow : EventRow where
  id := "pce_1"
  organizationId := "org"
  projectId := "project"
  instanceId := "instance"
  channelId := none
  sdpUserId := none
  family := .lifecycle
  type := "instance.connected"
  status := .info
  occurredAt := "2026-08-18T12:34:56.789Z"

theorem connected_listable : ∀ row ∈ [connectedRow], row.cursor.Listable fun _ => true := by
  intro row hrow
  rw [List.mem_singleton.mp hrow]
  exact ⟨by decide, by decide, by decide, by decide, rfl⟩

theorem connected_unique : ([connectedRow].map fun row => row.cursor.id).Nodup := List.nodup_singleton _

def connectedEvents : CursorTable (fun _ => true) EventRow.cursor :=
  ⟨[connectedRow], connected_unique, connected_listable⟩

theorem connected_is_read :
    (∃ pages, readPages (fun table : CursorTable (fun _ => true) EventRow.cursor =>
        listChannelEvents (fun text => text) "instance" "channel" (.member ["channel"] "user") ⟨none, none, none, 50⟩
          table.rows) [connectedEvents] none = .ok pages ∧
      Reads (fun row => row.cursor.key fun text => text) (min (max 50 1) 100)
        ([connectedEvents].map fun table => (EventViewer.member ["channel"] "user").channelRows "instance" "channel"
          ⟨none, none, none, 50⟩ table.rows) pages) ∧
    ∃ pages, readPages (fun table : CursorTable (fun _ => true) EventRow.cursor =>
        listProjectEvents (fun text => text) "org" "project" (.member ["channel"] "user") ⟨none, none, none, 50⟩
          table.rows) [connectedEvents] none = .ok pages ∧
      Reads (fun row => row.cursor.key fun text => text) (min (max 50 1) 100)
        ([connectedEvents].map fun table => table.rows.filter fun row => row.organizationId = "org" &&
          row.projectId = "project" && (EventViewer.member ["channel"] "user").seesInProject row &&
          (⟨none, none, none, 50⟩ : EventsQuery).selects row) pages :=
  events_are_read Function.injective_id (.member ["channel"] "user") ⟨none, none, none, 50⟩ "org" "project" "instance"
    "channel" [connectedEvents]

/-! ## The feed and the lists -/

theorem filter_descending {ρ : Type} {key : ρ → κ} (selects : ρ → Bool) {rows : List ρ} (h : (rows.map key).Nodup) :
    (Keyset.descending key rows).filter selects = Keyset.descending key (rows.filter selects) := by
  have hsorted {rows : List ρ} (h : (rows.map key).Nodup) :
      (Keyset.descending key rows).Pairwise fun a b => key b < key a := by
    have hbehind : (Keyset.behind key none rows).Pairwise fun a b => key b < key a := Keyset.behind_sorted h
    rwa [Keyset.behind, List.filter_eq_self.mpr (by simp)] at hbehind
  refine Keyset.descending_unique ((hsorted h).filter _) (hsorted (h.sublist (List.filter_sublist.map key))) fun row => ?_
  rw [List.mem_filter, (Keyset.descending_perm _).mem_iff, (Keyset.descending_perm _).mem_iff, List.mem_filter]

/-- Of rows that do not change, a client that reads the feed to its end sees the very vault movements, and in the same
order, that it sees in the list of each direction. -/
theorem feed_agrees_with_lists (hcollate : Function.Injective collate) (message : String) (direction : Direction)
    (caller : Caller) (table : CursorTable (vaultMovementCursorSchema isDatetime) MovementRow.cursor) {limit limit' n n' : Nat}
    (hlimit : 0 < limit) (hlimit' : 0 < limit') (hn : table.rows.length < n * limit)
    (hn' : table.rows.length < n' * limit') :
    ∃ feed list,
      readPages (fun table => listEarnMovements isDatetime collate caller (.everything limit) table.rows)
        (List.replicate n table) none = .ok feed ∧
      readPages (fun table => listEarnVaultMovements isDatetime collate message direction caller (.everything limit')
        table.rows) (List.replicate n' table) none = .ok list ∧
      (feed.flatMap (·.rows)).filter (fun row => row.executionModel = .vaultDirect && row.direction = direction) =
        list.flatMap (·.rows) := by
  have hlength {n limit : Nat} (selects : MovementRow → Bool) (h : table.rows.length < n * limit) :
      (table.rows.filter selects).length ≤ n * limit := (List.length_filter_le _ _).trans h.le
  obtain ⟨feed, hfeed, -, hrows⟩ := reads_all
    (pagesOf_movements isDatetime CursorTable.rows caller (.everything limit)) hcollate hlimit (hlength _ hn)
    (Nat.pos_of_lt_mul_right hn) (table.filter_ids _) (fun row hrow => (table.filter_listable _ row hrow).weaken)
  obtain ⟨list, hlist, -, hrows'⟩ := reads_all
    (pagesOf_vaultMovements CursorTable.rows message direction caller (.everything limit') rfl) hcollate hlimit' (hlength _ hn')
    (Nat.pos_of_lt_mul_right hn') (table.filter_ids _) (table.filter_listable _)
  refine ⟨feed, list, hfeed, hlist, ?_⟩
  rw [hrows, hrows', filter_descending _ (keys_nodup hcollate (table.filter_ids _)), List.filter_filter]
  refine congrArg _ (List.filter_congr fun row _ => ?_)
  by_cases hvault : row.executionModel = .vaultDirect
  · rw [seesMovement_vault caller hvault]
    by_cases hdirection : row.direction = direction
    · simp [hvault, hdirection, MovementsQuery.selects, MovementsQuery.everything, VaultMovementsQuery.selects,
        VaultMovementsQuery.everything]
    · simp [Caller.ownsVaultMovement, hdirection]
  · simp [Caller.ownsVaultMovement, hvault]

def depositTable : CursorTable (vaultMovementCursorSchema looksLikeDatetime) MovementRow.cursor :=
  ⟨[depositRow "earn_movement_1", depositRow "earn_movement_2"], deposits_unique, deposits_listable⟩

theorem deposit_feed_agrees_with_list :
    ∃ feed list,
      readPages (fun table : CursorTable (vaultMovementCursorSchema looksLikeDatetime) MovementRow.cursor =>
        listEarnMovements looksLikeDatetime (fun text => text) depositor (.everything 1) table.rows)
          (List.replicate 3 depositTable) none = .ok feed ∧
      readPages (fun table : CursorTable (vaultMovementCursorSchema looksLikeDatetime) MovementRow.cursor =>
        listEarnVaultMovements looksLikeDatetime (fun text => text) "Invalid vault deposit pagination cursor" .deposit
          depositor (.everything 20) table.rows) (List.replicate 1 depositTable) none = .ok list ∧
      (feed.flatMap (·.rows)).filter (fun row => row.executionModel = .vaultDirect && row.direction = .deposit) =
        list.flatMap (·.rows) :=
  feed_agrees_with_lists Function.injective_id "Invalid vault deposit pagination cursor" .deposit depositor depositTable
    Nat.one_pos (by decide) (by decide) (by decide)

/-! ## Looking a movement up -/

/-- A query for a request id, and what else the client may ask for beside it. -/
def VaultMovementsQuery.forRequest (requestId : String) (limit : Nat) (settled : Option Bool) : VaultMovementsQuery :=
  ⟨limit, some requestId, settled⟩

/-- The table of movements, with its unique index on the request ids of an organization's vault rows. -/
structure MovementTable (isDatetime : String → Bool) extends
    CursorTable (vaultMovementCursorSchema isDatetime) MovementRow.cursor where
  requests_unique : ((rows.filter (·.executionModel = .vaultDirect)).map fun row =>
    (row.organizationId, row.requestId)).Nodup

theorem filter_request_length (table : MovementTable isDatetime) (organizationId requestId : String) :
    (table.rows.filter fun row => row.organizationId = organizationId && row.requestId = requestId &&
      row.executionModel = .vaultDirect).length ≤ 1 := by
  let named (row : MovementRow) : Bool := row.organizationId = organizationId && row.requestId = requestId
  have hsub : ((table.rows.filter (·.executionModel = .vaultDirect)).filter named).Sublist
      (table.rows.filter (·.executionModel = .vaultDirect)) := List.filter_sublist
  -- Each of them has the one key that the index admits once.
  have hkeys : ((table.rows.filter (·.executionModel = .vaultDirect)).filter named).map
      (fun row => (row.organizationId, row.requestId)) =
      List.replicate ((table.rows.filter (·.executionModel = .vaultDirect)).filter named).length
        (organizationId, requestId) := by
    rw [List.eq_replicate_iff]
    refine ⟨List.length_map _, fun key hkey => ?_⟩
    obtain ⟨row, hrow, rfl⟩ := List.mem_map.mp hkey
    have hnamed := List.of_mem_filter hrow
    simp only [named, Bool.and_eq_true, decide_eq_true_eq] at hnamed
    rw [hnamed.1, hnamed.2]
  have hnodup := table.requests_unique.sublist (hsub.map _)
  rw [hkeys, List.nodup_replicate, List.filter_filter] at hnodup
  exact hnodup

theorem eq_of_perm_of_length {ρ : Type} {l l' : List ρ} (h : l.Perm l') (hlength : l'.length ≤ 1) : l = l' := by
  rcases l' with - | ⟨row, - | ⟨second, rest⟩⟩
  · exact List.perm_nil.mp h
  · exact List.perm_singleton.mp h
  · simp at hlength

theorem toList_head? {ρ : Type} {l : List ρ} (hlength : l.length ≤ 1) : l.head?.toList = l := by
  rcases l with - | ⟨row, - | ⟨second, rest⟩⟩
  · rfl
  · rfl
  · simp at hlength

/-- The row that the lookup finds, if the caller may see it, is what the list shows with that request id. -/
theorem lookup_eq (table : MovementTable isDatetime) (caller : Caller) (direction : Direction) (requestId : String) :
    ((findVaultMovementByRequestId caller.organizationId requestId table.rows).filter
      (caller.ownsVaultMovement direction)).toList =
      (Keyset.descending (·.cursor.key collate) (table.rows.filter (caller.ownsVaultMovement direction))).filter
        (·.requestId = requestId) := by
  let named (row : MovementRow) : Bool :=
    row.organizationId = caller.organizationId && row.requestId = requestId && row.executionModel = .vaultDirect
  have hlength : (table.rows.filter named).length ≤ 1 := filter_request_length table _ _
  have hshown : (table.rows.filter (caller.ownsVaultMovement direction)).filter (·.requestId = requestId) =
      (table.rows.filter named).filter (caller.ownsVaultMovement direction) := by
    rw [List.filter_filter, List.filter_filter]
    refine List.filter_congr fun row _ => ?_
    rw [Bool.eq_iff_iff]
    simp only [named, Caller.ownsVaultMovement, Bool.and_eq_true, decide_eq_true_eq]
    tauto
  have hperm : ((Keyset.descending (·.cursor.key collate) (table.rows.filter (caller.ownsVaultMovement direction))).filter
      (·.requestId = requestId)).Perm
      ((table.rows.filter (caller.ownsVaultMovement direction)).filter (·.requestId = requestId)) :=
    (Keyset.descending_perm _).filter _
  rw [hshown] at hperm
  rw [eq_of_perm_of_length hperm ((List.length_filter_le _ _).trans hlength), Option.toList_filter,
    findVaultMovementByRequestId, ← List.head?_filter]
  exact congrArg _ (toList_head? hlength)

theorem lookup_page (table : MovementTable isDatetime) (message : String) (direction : Direction) (caller : Caller)
    (requestId : String) (limit : Nat) (settled : Option Bool) :
    listEarnVaultMovements isDatetime collate message direction caller (.forRequest requestId limit settled) table.rows
        none =
      .ok ⟨(Keyset.descending (·.cursor.key collate) (table.rows.filter (caller.ownsVaultMovement direction))).filter
        (·.requestId = requestId), false, none⟩ := by
  rw [← lookup_eq table caller direction requestId, listEarnVaultMovements, listPage, parseBefore_none]
  change toPage MovementRow.cursor (if caller.custodyWalletIds = [] then ([], false) else
    (((findVaultMovementByRequestId caller.organizationId requestId table.rows).filter
      (caller.ownsVaultMovement direction)).toList, false)) = _
  split
  · next hwallets =>
    have hnone : caller.ownsVaultMovement direction = fun _ => false := by
      funext row
      simp [Caller.ownsVaultMovement, hwallets]
    simp [hnone, toPage]
  · rfl

/-- A list of vault movements, and its lookup by request id: whatever else a client sends with the id, it gets what it would
find with that id if it read the list to its end. -/
def LookupAgrees (list : VaultMovementsQuery → List MovementRow → Option String → Except ListError (Page MovementRow))
    (table : MovementTable isDatetime) (limit n : Nat) (requestId : String) : Prop :=
  ∃ pages, readPages (fun table : MovementTable isDatetime => list (.everything limit) table.rows)
      (List.replicate n table) none = .ok pages ∧
    ∀ limit' settled, list (.forRequest requestId limit' settled) table.rows none =
      .ok ⟨(pages.flatMap (·.rows)).filter (·.requestId = requestId), false, none⟩

theorem lookupAgrees (hcollate : Function.Injective collate) (message : String) (direction : Direction) (caller : Caller)
    (table : MovementTable isDatetime) (requestId : String) {limit n : Nat} (hlimit : 0 < limit)
    (hn : table.rows.length < n * limit) :
    LookupAgrees (listEarnVaultMovements isDatetime collate message direction caller) table limit n requestId := by
  have hselected : (table.rows.filter fun row => caller.ownsVaultMovement direction row &&
      (VaultMovementsQuery.everything limit).selects direction row) =
      table.rows.filter (caller.ownsVaultMovement direction) := by
    simp [VaultMovementsQuery.selects, VaultMovementsQuery.everything]
  obtain ⟨pages, hpages, -, hrows⟩ := reads_all
    (pagesOf_vaultMovements (fun table : MovementTable isDatetime => table.rows) message direction caller
      (.everything limit) rfl) hcollate hlimit ((List.length_filter_le _ _).trans hn.le) (Nat.pos_of_lt_mul_right hn)
    (table.toCursorTable.filter_ids _) (table.toCursorTable.filter_listable _)
  rw [hselected] at hrows
  refine ⟨pages, hpages, fun limit' settled => ?_⟩
  rw [hrows]
  exact lookup_page table message direction caller requestId limit' settled

/-- Of movements that do not change, the lookup by request id of either list answers with what the list itself shows with
that id: with the movement that has it if it is in the list, and with nothing if the list does not show it. -/
theorem request_is_looked_up (hcollate : Function.Injective collate) (caller : Caller) (table : MovementTable isDatetime)
    (requestId : String) {limit n : Nat} (hlimit : 0 < limit) (hn : table.rows.length < n * limit) :
    LookupAgrees (listEarnVaultDeposits isDatetime collate caller) table limit n requestId ∧
      LookupAgrees (listEarnVaultWithdrawals isDatetime collate caller) table limit n requestId :=
  ⟨lookupAgrees hcollate _ .deposit caller table requestId hlimit hn,
    lookupAgrees hcollate _ .withdrawal caller table requestId hlimit hn⟩

def movementTable : MovementTable looksLikeDatetime where
  toCursorTable := depositTable
  requests_unique := by decide

theorem deposit_is_looked_up :
    LookupAgrees (listEarnVaultDeposits looksLikeDatetime (fun text => text) depositor) movementTable 1 3
        "earn_movement_1" ∧
      LookupAgrees (listEarnVaultWithdrawals looksLikeDatetime (fun text => text) depositor) movementTable 1 3
        "earn_movement_1" :=
  request_is_looked_up Function.injective_id depositor movementTable "earn_movement_1" Nat.one_pos (by decide)

end

end Sdp.Lists
