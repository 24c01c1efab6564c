import Sdp.Code.TokenSupply

/-! # What a step of the supply machine does -/

open Sdp.Lib

namespace Sdp.Issuance

variable {s t : System}

/-- One case for each way that a step ends. -/
inductive Effect (s : System) : Step → System → Prop
  | elapse {now : Nat} (hnow : s.now ≤ now)
      (hwindow : ∀ mint ∈ s.mints.rows, mint.stage = .admitted → now ≤ mint.updatedAt + mintInFlightWindowMs) :
      Effect s (.elapse now) { s with now }
  | createMint {id n : Nat} {amount : String} (hnew : s.mints.find? id = none)
      (hamount : parsePositiveTokenAmount amount s.token.decimals = some n) :
      Effect s (.createMint id amount)
        { s with mints := s.mints.insertNew ⟨id, amount, n, .pending, s.now, .created⟩ }
  | reserved {id time : Nat} {mint : MintTransaction} {token : IssuedToken} (hmint : s.mints.find? id = some mint)
      (hstage : mint.stage = .created) (htoken : reserveMintSupply s.token mint.amountBaseUnits time = some token) :
      Effect s (.reserveMint id time)
        { s.setMint id (if s.now ≤ mint.updatedAt + mintInFlightWindowMs then .admitted else .expired) with
          token, reservations := s.reservations + 1 }
  | refused {id time : Nat} {mint : MintTransaction} (hmint : s.mints.find? id = some mint)
      (hstage : mint.stage = .created) : Effect s (.reserveMint id time) (s.setMint id .refused)
  | updateMint {id : Nat} {status : TransactionStatus} {mint : MintTransaction} (hmint : s.mints.find? id = some mint)
      (hstatus : status.unsettled = true ∨ mint.stage.hasLanded = true) :
      Effect s (.updateMint id status)
        { s with mints := s.mints.update id (fun _ => true) (setStatus status s.now) fun _ => rfl }
  | landMint {id : Nat} {mint : MintTransaction} (hmint : s.mints.find? id = some mint)
      (hstage : mint.stage = .admitted) :
      Effect s (.landMint id)
        { s.setMint id (.landed (s.slot + 1)) with
          slot := s.slot + 1, chainSupply := s.chainSupply + mint.amountBaseUnits }
  | expireMint {id : Nat} {mint : MintTransaction} (hmint : s.mints.find? id = some mint)
      (hstage : mint.stage = .admitted) : Effect s (.expireMint id) (s.setMint id .expired)
  | admitBurn {id n : Nat} {amount : String} (hnew : s.burns.find? id = none)
      (hamount : parsePositiveTokenAmount amount s.token.decimals = some n) :
      Effect s (.admitBurn id amount) { s with burns := s.burns.insertNew (admittedBurn s.token id n) }
  | landBurn {id : Nat} {burn : BurnTransaction} (hburn : s.burns.find? id = some burn) (hland : burn.landedAt = none)
      (hamount : burn.amountBaseUnits ≤ s.chainSupply) :
      Effect s (.landBurn id)
        { s with
          slot := s.slot + 1
          chainSupply := s.chainSupply - burn.amountBaseUnits
          burns := s.burns.update id (fun _ => true) (setLanded (s.slot + 1)) fun _ => rfl }
  | bookkeepBurn {id time : Nat} {burn burn' : BurnTransaction} {token : IssuedToken}
      (hburn : s.burns.find? id = some burn) (hland : burn.landedAt.isSome = true)
      (hbook : applySettledBurnSupply s.token burn time s.reconciledSlot = (token, burn')) :
      Effect s (.bookkeepBurn id time)
        { s with
          token
          burns := s.burns.update id (fun _ => true) (setBooked burn') fun _ => rfl }
  | checkedCap {n cap : Nat} {maxSupply : String} (hcap : s.token.totalSupplyCached ≤ cap) :
      Effect s (.checkCap n maxSupply) (s.setCapChange n (.checked cap s.token.totalSupplyCached))
  | refusedCap {n : Nat} {maxSupply : String} : Effect s (.checkCap n maxSupply) (s.setCapChange n .done)
  | writtenCap {n maxSupply : Nat} (hcap : s.capChanges n = .checked maxSupply s.token.totalSupplyCached) :
      Effect s (.writeCap n)
        ({ s with token := { s.token with maxSupply := some maxSupply } }.setCapChange n .done)
  | lostCap {n : Nat} : Effect s (.writeCap n) (s.setCapChange n .done)
  | clearCap : Effect s .clearCap { s with token := { s.token with maxSupply := none } }
  | readSupply {n : Nat} : Effect s (.readSupply n) (s.setRefresh n (.read s.chainSupply s.slot))
  | callRefresh {n reading slot : Nat} (hread : s.refreshes n = .read reading slot) :
      Effect s (.callRefresh n) (s.setRefresh n (.called reading slot s.now))
  | resolveRefresh {n reading slot now : Nat} (hcalled : s.refreshes n = .called reading slot now) :
      Effect s (.resolveRefresh n)
        (s.setRefresh n (.resolved reading slot now
          (resolvedSupply s.token s.mints reading (now - mintInFlightWindowMs)) s.reservations))
  | writeRefresh {n reading slot now supply reservations : Nat}
      (hresolved : s.refreshes n = .resolved reading slot now supply reservations) :
      Effect s (.writeRefresh n)
        ({ s with
          token := setSupply s.token reading supply now
          reconciledSlot := max s.reconciledSlot slot }.setRefresh n .done)

theorem effect_of_step {l : Step} (h : s.step l = some t) : Effect s l t := by
  cases l with
  | elapse now =>
    simp only [System.step, System.elapse] at h
    split at h
    · next hguard => cases h; exact .elapse hguard.1 hguard.2
    · contradiction
  | createMint id amount =>
    simp only [System.step, System.createMint] at h
    split at h
    · next n hnew hamount => cases h; exact .createMint hnew hamount
    · contradiction
  | reserveMint id time =>
    simp only [System.step, System.reserveMint] at h
    split at h
    · next mint hmint =>
      split at h
      · next hguard =>
        split at h
        · next token htoken => cases h; exact .reserved hmint hguard.1 htoken
        · cases h; exact .refused hmint hguard.1
      · contradiction
    · contradiction
  | updateMint id status =>
    simp only [System.step, System.updateMint] at h
    split at h
    · next mint hmint =>
      split at h
      · next hstatus => cases h; exact .updateMint hmint hstatus
      · contradiction
    · contradiction
  | landMint id =>
    simp only [System.step, System.landMint] at h
    split at h
    · next mint hmint =>
      split at h
      · next hstage => cases h; exact .landMint hmint hstage
      · contradiction
    · contradiction
  | expireMint id =>
    simp only [System.step, System.expireMint] at h
    split at h
    · next mint hmint =>
      split at h
      · next hstage => cases h; exact .expireMint hmint hstage
      · contradiction
    · contradiction
  | admitBurn id amount =>
    simp only [System.step, System.admitBurn] at h
    split at h
    · next n hnew hamount => cases h; exact .admitBurn hnew hamount
    · contradiction
  | landBurn id =>
    simp only [System.step, System.landBurn] at h
    split at h
    · next burn hburn =>
      split at h
      · next hguard => cases h; exact .landBurn hburn hguard.1 hguard.2
      · contradiction
    · contradiction
  | bookkeepBurn id time =>
    simp only [System.step, System.bookkeepBurn] at h
    split at h
    · next burn hburn =>
      split at h
      · next hguard => cases h; exact .bookkeepBurn hburn hguard.1 rfl
      · contradiction
    · contradiction
  | checkCap n maxSupply =>
    simp only [System.step, System.checkCap] at h
    split at h
    · split at h
      · split at h
        · next hcap => cases h; exact .checkedCap hcap
        · cases h; exact .refusedCap
      · cases h; exact .refusedCap
    · contradiction
  | writeCap n =>
    simp only [System.step, System.writeCap] at h
    split at h
    · next hcap =>
      split at h
      · next hsupply => subst hsupply; cases h; exact .writtenCap hcap
      · cases h; exact .lostCap
    · contradiction
  | clearCap => cases h; exact .clearCap
  | readSupply n =>
    simp only [System.step, System.readSupply] at h
    split at h
    · cases h; exact .readSupply
    · contradiction
  | callRefresh n =>
    simp only [System.step, System.callRefresh] at h
    split at h
    · next hread => cases h; exact .callRefresh hread
    · contradiction
  | resolveRefresh n =>
    simp only [System.step, System.resolveRefresh] at h
    split at h
    · next hcalled => cases h; exact .resolveRefresh hcalled
    · contradiction
  | writeRefresh n =>
    simp only [System.step, System.writeRefresh] at h
    split at h
    · next hresolved => cases h; exact .writeRefresh hresolved
    · contradiction

end Sdp.Issuance
