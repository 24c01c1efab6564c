import Sdp.AmountValues
import Sdp.Fingerprints

/-!
# Fingerprints of vault movements

Two spellings of a decimal text are normalized alike exactly if they denote one number, so that a fingerprint tells the
fields of an intent and the numbers it moves.
-/

open Sdp.Lib.Json Sdp.Amount

namespace Sdp.Idempotency

/-- Two texts of one number. -/
def SameNumber (left right : String) : Prop := ∃ value, Denotes left value ∧ Denotes right value

/-! ## Leading zeros -/

theorem stripLeadingZeros_spec {digits : List Char} (hdigits : ∀ c ∈ digits, isDigit c = true) :
    let kept := if stripLeadingZeros digits = [] then ['0'] else stripLeadingZeros digits
    Plain kept ∧ (∀ c ∈ kept, isDigit c = true) ∧ digitsValue kept = digitsValue digits := by
  have hvalue := digitsValue_dropWhile digits
  have hmem : ∀ c ∈ digits.dropWhile (· = '0'), isDigit c = true :=
    fun c hc => hdigits c ((List.dropWhile_sublist _).subset hc)
  have hhead : ∀ c ∈ (digits.dropWhile (· = '0')).head?, c ≠ '0' := by
    intro c hc
    have hnot := List.head?_dropWhile_not (· = '0') digits
    rw [Option.mem_def.mp hc] at hnot
    simpa using hnot
  unfold stripLeadingZeros
  simp only
  generalize digits.dropWhile (· = '0') = rest at hvalue hmem hhead
  cases rest with
  | nil =>
    rw [← hvalue]
    have hzero : Plain ['0'] ∧ (∀ c ∈ ['0'], isDigit c = true) ∧ digitsValue ['0'] = digitsValue [] :=
      ⟨.inl rfl, by simp [isDigit], rfl⟩
    split <;> simpa using hzero
  | cons c rest =>
    have hdigit : c.isDigit = true := isDigit_iff.mp (hmem c List.mem_cons_self)
    have hkept : (if (c :: rest).length = digits.length ∨ (c :: rest).head?.any Char.isDigit = true then c :: rest
        else '0' :: c :: rest) = c :: rest := if_pos (Or.inr hdigit)
    rw [hkept, if_neg (List.cons_ne_nil _ _)]
    exact ⟨.inr ⟨List.cons_ne_nil _ _, hhead⟩, hmem, hvalue⟩

/-! ## Normal texts -/

/-- The number of a whole and a fractional part. -/
def partsValue (whole fraction : List Char) : ℚ := digitsValue whole + digitsValue fraction / 10 ^ fraction.length

/-- A normal text: a plain whole part, and a fraction that does not end in a zero. -/
structure NormalParts (whole fraction : List Char) : Prop where
  plain : Plain whole
  digits : ∀ c ∈ whole, isDigit c = true
  places : ∀ c ∈ fraction, isDigit c = true
  last : ∀ c ∈ fraction.getLast?, c ≠ '0'

def joinParts (whole fraction : List Char) : List Char := if fraction = [] then whole else whole ++ '.' :: fraction

theorem scaled_partsValue (whole fraction : List Char) :
    partsValue whole fraction * 10 ^ fraction.length = (digitsValue (whole ++ fraction) : ℕ) := by
  have hten : (10 : ℚ) ^ fraction.length ≠ 0 := pow_ne_zero _ (by norm_num)
  rw [partsValue, add_mul, div_mul_cancel₀ _ hten, digitsValue_append, Nat.cast_add, Nat.cast_mul, Nat.cast_pow,
    Nat.cast_ofNat]

theorem NormalParts.eq {whole fraction whole' fraction' : List Char} (h : NormalParts whole fraction)
    (h' : NormalParts whole' fraction') (hvalue : partsValue whole fraction = partsValue whole' fraction') :
    whole = whole' ∧ fraction = fraction' := by
  have hscaled := scaled_partsValue whole fraction
  have hscaled' := scaled_partsValue whole' fraction'
  have hle : fraction'.length ≤ fraction.length := by
    rw [hvalue] at hscaled
    exact length_le_of_integral h'.places h'.last hscaled
  have hge : fraction.length ≤ fraction'.length := by
    rw [← hvalue] at hscaled'
    exact length_le_of_integral h.places h.last hscaled'
  have hlength := Nat.le_antisymm hge hle
  have hdigits : digitsValue (whole ++ fraction) = digitsValue (whole' ++ fraction') := by
    rw [hvalue, hlength, hscaled', Nat.cast_inj] at hscaled
    exact hscaled.symm
  have hlt := digitsValue_lt h.places
  have hlt' := digitsValue_lt h'.places
  rw [digitsValue_append, digitsValue_append, hlength] at hdigits
  rw [hlength] at hlt
  have hpos : 0 < 10 ^ fraction'.length := Nat.pow_pos (by decide)
  have hwhole : digitsValue whole = digitsValue whole' := by
    have hdiv := congrArg (· / 10 ^ fraction'.length) hdigits
    simpa [Nat.mul_comm _ (10 ^ fraction'.length), Nat.mul_add_div hpos, Nat.div_eq_of_lt hlt, Nat.div_eq_of_lt hlt']
      using hdiv
  have hfraction : digitsValue fraction = digitsValue fraction' := by
    rw [hwhole] at hdigits
    omega
  exact ⟨h.plain.eq h'.plain h.digits h'.digits hwhole, digitsValue_inj h.places h'.places hlength hfraction⟩

theorem joinParts_inj {whole fraction whole' fraction' : List Char} (h : NormalParts whole fraction)
    (h' : NormalParts whole' fraction') (heq : joinParts whole fraction = joinParts whole' fraction') :
    whole = whole' ∧ fraction = fraction' := by
  have hparts {whole fraction : List Char} (h : NormalParts whole fraction) :
      (joinParts whole fraction).splitOn '.' = if fraction = [] then [whole] else [whole, fraction] := by
    unfold joinParts
    split
    · exact List.splitOn_eq_singleton (dot_notMem_digits h.digits)
    · rw [List.splitOn_append_cons_self_of_not_mem (dot_notMem_digits h.digits),
        List.splitOn_eq_singleton (dot_notMem_digits h.places)]
  have hsplit := hparts h
  rw [heq, hparts h'] at hsplit
  split at hsplit <;> split at hsplit
  · simp_all
  · simp at hsplit
  · simp at hsplit
  · simp_all

theorem normalizeDecimalString_spec {text : String} {value : ℚ} (h : DecimalText text.toList value) :
    ∃ whole fraction, NormalParts whole fraction ∧ partsValue whole fraction = value ∧
      normalizeDecimalString text = String.ofList (joinParts whole fraction) := by
  unfold normalizeDecimalString
  generalize text.toList = l at h
  cases h with
  | integer _ hne hwhole =>
    obtain ⟨hplain, hdigits, hvalue⟩ := stripLeadingZeros_spec hwhole
    refine ⟨_, [], ⟨hplain, hdigits, by simp, by simp⟩, ?_, ?_⟩
    · have hnone : digitsValue [] = 0 := rfl
      rw [partsValue, hvalue, hnone]
      simp
    · simp [joinParts, List.splitOn_eq_singleton (dot_notMem_digits hwhole)]
  | point whole fraction hne hwhole hfraction =>
    obtain ⟨hplain, hdigits, hvalue⟩ := stripLeadingZeros_spec hwhole
    refine ⟨_, _, ⟨hplain, hdigits, fun c hc => hfraction c (mem_kept hc), kept_last fraction⟩, ?_, ?_⟩
    · rw [partsValue, hvalue, ← value_kept]
    · simp [joinParts, List.splitOn_append_cons_self_of_not_mem (dot_notMem_digits hwhole),
        List.splitOn_eq_singleton (dot_notMem_digits hfraction)]

/-- Two decimal texts are normalized alike exactly if they are texts of one number. -/
theorem normalizeDecimalString_eq_iff {left right : String} {p q : ℚ} (hp : DecimalText left.toList p)
    (hq : DecimalText right.toList q) : normalizeDecimalString left = normalizeDecimalString right ↔ p = q := by
  obtain ⟨whole, fraction, hnormal, rfl, htext⟩ := normalizeDecimalString_spec hp
  obtain ⟨whole', fraction', hnormal', rfl, htext'⟩ := normalizeDecimalString_spec hq
  rw [htext, htext', String.ofList_inj]
  constructor
  · intro h
    obtain ⟨rfl, rfl⟩ := joinParts_inj hnormal hnormal' h
    rfl
  · intro h
    obtain ⟨rfl, rfl⟩ := hnormal.eq hnormal' h
    rfl

/-! ## What the schemas let through -/

theorem areDigits_iff {digits : List Char} : areDigits digits = true ↔ digits ≠ [] ∧ ∀ c ∈ digits, isDigit c = true := by
  simp [areDigits, isDigit_iff]

theorem denotes_of_acceptsAmount {text : String} (h : acceptsAmount text = true) :
    ∃ value, DecimalText text.toList value ∧ Denotes text value := by
  have hpattern : isDecimalPattern text.toList = true := by
    simp only [acceptsAmount, Bool.and_eq_true] at h
    exact h.1.2
  have htext : ∃ value, DecimalText text.toList value := by
    have hjoin : List.intercalate ['.'] (text.toList.splitOn '.') = text.toList := List.intercalate_splitOn '.'
    unfold isDecimalPattern at hpattern
    split at hpattern
    · next whole hsplit =>
      obtain ⟨hne, hdigits⟩ := areDigits_iff.mp hpattern
      rw [hsplit] at hjoin
      rw [← hjoin]
      simpa using ⟨_, DecimalText.integer whole hne hdigits⟩
    · next whole fraction hsplit =>
      obtain ⟨hwhole, hfraction⟩ := Bool.and_eq_true_iff.mp hpattern
      obtain ⟨hne, hdigits⟩ := areDigits_iff.mp hwhole
      obtain ⟨-, hplaces⟩ := areDigits_iff.mp hfraction
      rw [hsplit] at hjoin
      rw [← hjoin]
      simpa [List.intercalate] using ⟨_, DecimalText.point whole fraction (.inl hne) hdigits hplaces⟩
    · cases hpattern
  obtain ⟨value, hvalue⟩ := htext
  have htrim := trim_decimal text (isDecimalString_iff.mpr ⟨value, hvalue⟩)
  exact ⟨value, hvalue, by rwa [Denotes, htrim]⟩

theorem normalizeDecimalString_eq_iff_sameNumber {left right : String} (hleft : acceptsAmount left = true)
    (hright : acceptsAmount right = true) :
    normalizeDecimalString left = normalizeDecimalString right ↔ SameNumber left right := by
  obtain ⟨p, hp, hleft⟩ := denotes_of_acceptsAmount hleft
  obtain ⟨q, hq, hright⟩ := denotes_of_acceptsAmount hright
  rw [normalizeDecimalString_eq_iff hp hq]
  constructor
  · rintro rfl
    exact ⟨p, hleft, hright⟩
  · rintro ⟨value, hvalue, hvalue'⟩
    exact (hleft.unique hvalue).trans (hvalue'.unique hright)

/-! ## Fingerprints -/

variable {localeCompare : String → String → Ordering}

theorem depositValue_unique (input : EarnVaultDepositFingerprintInput) : input.value.UniqueKeys := by
  cases hfloor : input.minSharesOut <;>
    simp [EarnVaultDepositFingerprintInput.value, hfloor, orNull, JsValue.UniqueKeys]

theorem withdrawalValue_unique (input : EarnVaultWithdrawalFingerprintInput) : input.value.UniqueKeys := by
  simp [EarnVaultWithdrawalFingerprintInput.value, JsValue.UniqueKeys]

theorem same_optional {b : Bool} {f : String → String} {s s' : Option String} :
    Same b (orNull (s.map fun text => .str (f text))) (orNull (s'.map fun text => .str (f text))) ↔ s.map f = s'.map f := by
  cases s <;> cases s' <;> simp [orNull, Same.refl]

/-- A deposit whose amounts the schema lets through. -/
def EarnVaultDepositFingerprintInput.Accepted (input : EarnVaultDepositFingerprintInput) : Prop :=
  acceptsAmount input.amount = true ∧ ∀ floor ∈ input.minSharesOut, acceptsAmount floor = true

/-- Two deposits of one intent. -/
structure SameDeposit (i j : EarnVaultDepositFingerprintInput) : Prop where
  environment : i.environment = j.environment
  provider : i.provider = j.provider
  providerReference : i.providerReference = j.providerReference
  custodyWalletId : i.custodyWalletId = j.custodyWalletId
  amount : SameNumber i.amount j.amount
  minSharesOut : Option.Rel SameNumber i.minSharesOut j.minSharesOut

structure SameWithdrawal (i j : EarnVaultWithdrawalFingerprintInput) : Prop where
  environment : i.environment = j.environment
  provider : i.provider = j.provider
  positionId : i.positionId = j.positionId
  shares : SameNumber i.shares j.shares

theorem floor_eq_iff {s s' : Option String} (hs : ∀ floor ∈ s, acceptsAmount floor = true)
    (hs' : ∀ floor ∈ s', acceptsAmount floor = true) :
    s.map normalizeDecimalString = s'.map normalizeDecimalString ↔ Option.Rel SameNumber s s' := by
  cases s with
  | none => cases s' <;> simp
  | some floor =>
    cases s' with
    | none => simp
    | some floor' => simpa using normalizeDecimalString_eq_iff_sameNumber (hs floor rfl) (hs' floor' rfl)

theorem deposit_fingerprint_iff {i j : EarnVaultDepositFingerprintInput} (hi : i.Accepted) (hj : j.Accepted) :
    buildEarnVaultDepositFingerprint localeCompare i = buildEarnVaultDepositFingerprint localeCompare j ↔
      SameDeposit i j := by
  constructor
  · intro h
    have hproperty := same_obj.mp (same_of_fingerprint (a := ⟨_, depositValue_unique i⟩) (b := ⟨_, depositValue_unique j⟩) h)
    exact ⟨same_str.mp (hproperty "environment"), same_str.mp (hproperty "provider"),
      same_str.mp (hproperty "providerReference"), same_str.mp (hproperty "custodyWalletId"),
      (normalizeDecimalString_eq_iff_sameNumber hi.1 hj.1).mp (same_str.mp (hproperty "amount")),
      (floor_eq_iff hi.2 hj.2).mp (same_optional.mp (hproperty "minSharesOut"))⟩
  · intro h
    have hamount := (normalizeDecimalString_eq_iff_sameNumber hi.1 hj.1).mpr h.amount
    have hfloor := (floor_eq_iff hi.2 hj.2).mpr h.minSharesOut
    have hvalue (s : Option String) : (s.map fun text => JsValue.str (normalizeDecimalString text)) =
        (s.map normalizeDecimalString).map JsValue.str := (Option.map_map _ _ s).symm
    have hsame : i.value = j.value := by
      unfold EarnVaultDepositFingerprintInput.value
      rw [hvalue, hvalue, h.environment, h.provider, h.providerReference, h.custodyWalletId, hamount, hfloor]
    rw [buildEarnVaultDepositFingerprint, hsame]
    rfl

theorem withdrawal_fingerprint_iff {i j : EarnVaultWithdrawalFingerprintInput} (hi : acceptsAmount i.shares = true)
    (hj : acceptsAmount j.shares = true) :
    buildEarnVaultWithdrawalFingerprint localeCompare i = buildEarnVaultWithdrawalFingerprint localeCompare j ↔
      SameWithdrawal i j := by
  constructor
  · intro h
    have hproperty := same_obj.mp
      (same_of_fingerprint (a := ⟨_, withdrawalValue_unique i⟩) (b := ⟨_, withdrawalValue_unique j⟩) h)
    exact ⟨same_str.mp (hproperty "environment"), same_str.mp (hproperty "provider"), same_str.mp (hproperty "positionId"),
      (normalizeDecimalString_eq_iff_sameNumber hi hj).mp (same_str.mp (hproperty "shares"))⟩
  · intro h
    have hshares := (normalizeDecimalString_eq_iff_sameNumber hi hj).mpr h.shares
    have hsame : i.value = j.value := by
      unfold EarnVaultWithdrawalFingerprintInput.value
      rw [h.environment, h.provider, h.positionId, hshares]
    rw [buildEarnVaultWithdrawalFingerprint, hsame]
    rfl

/-- Whatever the comparison of keys: two deposits, or two withdrawals, have one fingerprint exactly if their fields are
equal and their amounts are texts of one number. -/
theorem earn_fingerprints_exact (localeCompare : String → String → Ordering) :
    (∀ i j : EarnVaultDepositFingerprintInput, i.Accepted → j.Accepted →
      (buildEarnVaultDepositFingerprint localeCompare i = buildEarnVaultDepositFingerprint localeCompare j ↔
        SameDeposit i j)) ∧
    ∀ i j : EarnVaultWithdrawalFingerprintInput, acceptsAmount i.shares = true → acceptsAmount j.shares = true →
      (buildEarnVaultWithdrawalFingerprint localeCompare i = buildEarnVaultWithdrawalFingerprint localeCompare j ↔
        SameWithdrawal i j) :=
  ⟨fun _ _ => deposit_fingerprint_iff, fun _ _ => withdrawal_fingerprint_iff⟩

/-- A deposit with other zeros is the same intent, and one of a little more is not. -/
theorem respelled_deposit_replays :
    let deposit (amount : String) : EarnVaultDepositFingerprintInput := ⟨"sandbox", "kamino", "vault", "wallet", amount, none⟩
    buildEarnVaultDepositFingerprint compare (deposit "1") = buildEarnVaultDepositFingerprint compare (deposit "0001.000") ∧
      buildEarnVaultDepositFingerprint compare (deposit "1") ≠ buildEarnVaultDepositFingerprint compare (deposit "1.000001") := by
  intro deposit
  have haccepted (amount : String) (h : acceptsAmount amount = true) : (deposit amount).Accepted := ⟨h, by simp [deposit]⟩
  have hone : parseDecimalAmount "1" 6 = .ok 1000000 := by decide
  have hzeros : parseDecimalAmount "0001.000" 6 = .ok 1000000 := by decide
  have hmore : parseDecimalAmount "1.000001" 6 = .ok 1000001 := by decide
  obtain ⟨hdeposits, -⟩ := earn_fingerprints_exact compare
  refine ⟨(hdeposits _ _ (haccepted "1" (by decide)) (haccepted "0001.000" (by decide))).mpr ?_, fun h => ?_⟩
  · exact ⟨rfl, rfl, rfl, rfl, ⟨_, (parseDecimalAmount_iff.mp hone).1, (parseDecimalAmount_iff.mp hzeros).1⟩, .none⟩
  · obtain ⟨value, hvalue, hvalue'⟩ :=
      ((hdeposits _ _ (haccepted "1" (by decide)) (haccepted "1.000001" (by decide))).mp h).amount
    have heq := (hvalue.unique (parseDecimalAmount_iff.mp hone).1).symm.trans
      (hvalue'.unique (parseDecimalAmount_iff.mp hmore).1)
    norm_num at heq

end Sdp.Idempotency
