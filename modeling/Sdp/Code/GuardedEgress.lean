import Sdp.Lib.IpText
import Sdp.Number

/-!
# The addresses outbound connections keep away from

From `services/guarded-egress.ts`. A lower case letter beyond the digits of an address is none of them, so that
`toLowerCase` is the one of ASCII. A quad of `isBlockedIpv4` is one of numbers, not of digits.
-/

namespace Sdp.GuardedEgress

open Sdp.Amount (number isDigit)
open Sdp.Lib (isLowerHex parseHex quadText)

def isBlockedIpv4 (address : List Char) : Bool :=
  match (address.splitOn '.').mapM number with
  | some [a, b, c, d] =>
    if [a, b, c, d].any fun octet => !octet.isInt || octet < 0 then true
    else if a = 0 ∨ a = 127 then true
    else if a = 10 then true
    else if a = 172 ∧ 16 ≤ b ∧ b ≤ 31 then true
    else if a = 192 ∧ b = 168 then true
    else if a = 169 ∧ b = 254 then true
    else if a = 100 ∧ 64 ≤ b ∧ b ≤ 127 then true
    else if a = 192 ∧ b = 0 then true
    else if a = 198 ∧ (b = 18 ∨ b = 19) then true
    else if 224 ≤ a then true
    else false
  | _ => true

/-- `[0-9a-f]{1,4}` -/
def isHextet (text : List Char) : Bool := 1 ≤ text.length && text.length ≤ 4 && text.all isLowerHex

/-- `\d+\.\d+\.\d+\.\d+` -/
def isDottedQuad (text : List Char) : Bool :=
  let parts := text.splitOn '.'
  parts.length = 4 && parts.all fun part => part ≠ [] && part.all isDigit

/-- A text that begins with `f`, with characters of the three kinds, and a colon. -/
def leads (second third fourth : Char → Bool) : List Char → Bool
  | 'f' :: b :: c :: d :: ':' :: _ => second b && third c && fourth d
  | _ => false

def isUniqueLocal : List Char → Bool := leads (fun b => b = 'c' || b = 'd') isLowerHex isLowerHex

def isLinkLocal : List Char → Bool :=
  leads (fun b => b = 'e') (fun c => c = '8' || c = '9' || c = 'a' || c = 'b') isLowerHex

def isMulticast : List Char → Bool := leads (fun b => b = 'f') isLowerHex isLowerHex

def host (address : List Char) : List Char :=
  let lower := address.map Char.toLower
  let opened := if lower.head? = some '[' then lower.tail else lower
  let bare := if opened.getLast? = some ']' then opened.dropLast else opened
  (bare.splitOn '%').headD []

def isBlockedHost (host : List Char) : Bool :=
  if host = "::".toList ∨ host = "::1".toList then true
  else if isUniqueLocal host then true
  else if isLinkLocal host then true
  else if isMulticast host then true
  else false

/-- An address of the quad is one behind `::ffff:`, in either spelling. -/
def isBlockedIpv6 (address : List Char) : Bool :=
  let host := host address
  match host.splitOn ':' with
  | [[], [], ['f', 'f', 'f', 'f'], quad] => if isDottedQuad quad then isBlockedIpv4 quad else isBlockedHost host
  | [[], [], ['f', 'f', 'f', 'f'], high, low] =>
    if isHextet high && isHextet low then
      let high := parseHex high
      let low := parseHex low
      isBlockedIpv4 (quadText [high >>> 8, high &&& 0xff, low >>> 8, low &&& 0xff])
    else isBlockedHost host
  | _ => isBlockedHost host

def isBlockedAddress (address : String) : Bool :=
  if ':' ∈ address.toList then isBlockedIpv6 address.toList else isBlockedIpv4 address.toList

end Sdp.GuardedEgress
