import Sdp.Amount
import Sdp.Lib.IpText

/-!
# The address ranges of an API key

From `lib/ip-allowlist.ts`. A prefix is only compared with the width of its family, so that the rounding of `Number`
is not seen; `bestStart` is read only of a run that was found.
-/

namespace Sdp.IpAllowlist

open Sdp.Amount (isDigit digitsValue trim)
open Sdp.Lib (isHex parseHex quadText groupsText)

inductive IpType
  | ipv4
  | ipv6
deriving DecidableEq

structure ParsedIpRange where
  address : List Char
  groups : List Nat
  prefixLength : Nat
  type : IpType
deriving DecidableEq

/-- `0|[1-9]\d*` -/
def isPlainDecimal : List Char → Bool
  | ['0'] => true
  | c :: rest => '1' ≤ c && c ≤ '9' && rest.all isDigit
  | [] => false

def parseOctet (part : List Char) : Option Nat :=
  if !(isPlainDecimal part && part.length ≤ 3) then none
  else
    let octet := digitsValue part
    if 255 < octet then none else some octet

def parseIpv4Octets (address : List Char) : Option (List Nat) :=
  let parts := address.splitOn '.'
  if parts.length ≠ 4 then none else parts.mapM parseOctet

/-- `[0-9a-fA-F]{1,4}` -/
def isHextet (part : List Char) : Bool := 1 ≤ part.length && part.length ≤ 4 && part.all isHex

def quadHextets : List Nat → List Nat
  | [a, b, c, d] => [a <<< 8 ||| b, c <<< 8 ||| d]
  | _ => []

def toHextets : List (List Char) → Option (List Nat)
  | [] => some []
  | part :: rest =>
    if '.' ∈ part then if rest ≠ [] then none else (parseIpv4Octets part).map quadHextets
    else if !isHextet part then none
    else (toHextets rest).map (parseHex part :: ·)

/-- The text in front of the first `::` and the text behind it. -/
def cutElision : List Char → Option (List Char × List Char)
  | ':' :: ':' :: tail => some ([], tail)
  | c :: rest => (cutElision rest).map fun (head, tail) => (c :: head, tail)
  | [] => none

def splitGroups (text : List Char) : List (List Char) := if text ≠ [] then text.splitOn ':' else []

def parseIpv6Hextets (address : List Char) : Option (List Nat) :=
  match cutElision address with
  | none => (toHextets (address.splitOn ':')).bind fun hextets => if hextets.length = 8 then some hextets else none
  | some (headText, tailText) =>
    -- The search for another `::` starts at the second colon of the first.
    if (cutElision (':' :: tailText)).isSome then none
    else do
      let head ← toHextets (splitGroups headText)
      let tail ← toHextets (splitGroups tailText)
      let elided := 8 - head.length - tail.length
      if elided < 1 then none else some (head ++ List.replicate elided 0 ++ tail)

def maximumPrefix : IpType → Nat
  | .ipv4 => 32
  | .ipv6 => 128

def parseIpRange (value : List Char) : Option ParsedIpRange :=
  if value = [] ∨ value ≠ trim value then none
  else
    let segments := value.splitOn '/'
    if 2 < segments.length then none
    else
      let address := segments.headD []
      if '%' ∈ address then none
      else
        let type := if ':' ∈ address then .ipv6 else .ipv4
        match if type = .ipv4 then parseIpv4Octets address else parseIpv6Hextets address with
        | none => none
        | some groups =>
          match segments[1]? with
          | none => some ⟨address, groups, maximumPrefix type, type⟩
          | some rawPrefix =>
            if !isPlainDecimal rawPrefix then none
            else if maximumPrefix type < digitsValue rawPrefix then none
            else some ⟨address, groups, digitsValue rawPrefix, type⟩

def isValidIpAllowlistEntry (value : String) : Bool := (parseIpRange value.toList).isSome

/-! ## The canonical form -/

def maskGroups (groups : List Nat) (bitsPerGroup prefixLength : Nat) : List Nat :=
  let width := 1 <<< bitsPerGroup - 1
  groups.mapIdx fun index group =>
    let significant := min (prefixLength - index * bitsPerGroup) bitsPerGroup
    if significant = 0 then 0 else group &&& (width <<< (bitsPerGroup - significant) &&& width)

structure ZeroRuns where
  bestStart : Nat
  bestLength : Nat
  runStart : Option Nat

def ZeroRuns.close (runs : ZeroRuns) (index : Nat) : ZeroRuns :=
  match runs.runStart with
  | none => runs
  | some runStart =>
    if runs.bestLength < index - runStart then ⟨runStart, index - runStart, none⟩ else { runs with runStart := none }

/-- The loop of `formatIpv6`, which closes a run at a group that is not zero and at the end. -/
def zeroRuns : List Nat → (index : Nat) → ZeroRuns → ZeroRuns
  | [], index, runs => runs.close index
  | hextet :: rest, index, runs =>
    if hextet = 0 then zeroRuns rest (index + 1) { runs with runStart := some (runs.runStart.getD index) }
    else zeroRuns rest (index + 1) (runs.close index)

def formatIpv6 (hextets : List Nat) : List Char :=
  let best := zeroRuns hextets 0 ⟨0, 0, none⟩
  if best.bestLength < 2 then groupsText hextets
  else groupsText (hextets.take best.bestStart) ++ ':' :: ':' :: groupsText (hextets.drop (best.bestStart + best.bestLength))

def isIpv4Mapped (hextets : List Nat) : Bool := (hextets.take 5).all (· = 0) && hextets[5]? = some 0xffff

def formatRange (address : List Char) (prefixLength maximumPrefix : Nat) : List Char :=
  if prefixLength = maximumPrefix then address else address ++ '/' :: Nat.toDigits 10 prefixLength

def canonicalizeIpAllowlistEntry (value : String) : Option String :=
  (parseIpRange value.toList).map fun parsed => String.ofList <|
    match parsed.type with
    | .ipv4 => formatRange (quadText (maskGroups parsed.groups 8 parsed.prefixLength)) parsed.prefixLength 32
    | .ipv6 =>
      let masked := maskGroups parsed.groups 16 parsed.prefixLength
      if 96 ≤ parsed.prefixLength ∧ isIpv4Mapped masked then
        let sixth := masked.getD 6 0
        let seventh := masked.getD 7 0
        formatRange (quadText [sixth >>> 8, sixth &&& 0xff, seventh >>> 8, seventh &&& 0xff]) (parsed.prefixLength - 96) 32
      else formatRange (formatIpv6 masked) parsed.prefixLength 128

end Sdp.IpAllowlist
