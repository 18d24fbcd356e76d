import Elchi.WebhookSignature
import Mathlib.Data.List.Infix
namespace Elchi.Outbound
open Webhooks (hexDigit)

-- Addresses as lists of characters.
def digit (c : Char) : Option Nat := if '0' ≤ c ∧ c ≤ '9' then some (c.toNat-48) else none
def octet (part : List Char) : Option Nat :=
  if part.isEmpty || 3 < part.length then none
  else ((part.mapM digit).map fun digits => digits.foldl (fun n d => 10*n+d) 0).filter (· ≤ 255)
def ipv4Octets (addr : List Char) : Option (List Nat) :=
  let parts := addr.splitOn '.'
  if parts.length = 4 then parts.mapM octet else none
def isBlockedIpv4 (addr : List Char) : Bool :=
  match ipv4Octets addr with
  | some [a,b,_,_] =>
    a == 0 || a == 10 || a == 127 || (a == 169 && b == 254) || (a == 172 && 16 ≤ b && b ≤ 31) || (a == 192 && b == 168) ||
      (a == 100 && 64 ≤ b && b ≤ 127) || (a == 192 && b == 0) || (a == 198 && (b == 18 || b == 19)) || (a == 198 && b == 51) ||
      (a == 203 && b == 0) || 224 ≤ a
  | _ => true

def lowerHex (c : Char) : Option Nat := (hexDigit c).filter fun _ => !('A' ≤ c ∧ c ≤ 'F')
def hextet (part : List Char) : Option Nat :=
  if part.isEmpty || 4 < part.length then none
  else (part.mapM lowerHex).map fun digits => digits.foldl (fun n d => 16*n+d) 0
def parseGroups (text : List Char) : Option (List Nat) := if text.isEmpty then some [] else (text.splitOn ':').mapM hextet
-- split at '::'
def halves : List Char → List (List Char)
  | ':' :: ':' :: rest => [] :: halves rest
  | c :: rest => match halves rest with
    | first :: more => (c :: first) :: more
    | [] => [[c]]
  | [] => [[]]
-- An IPv4 address at the end, /(\d{1,3}(?:\.\d{1,3}){3})$/
def dottedQuad (text : List Char) : Bool :=
  let parts := text.splitOn '.'
  parts.length == 4 && parts.all fun part => !part.isEmpty && part.length ≤ 3 && part.all fun c => (digit c).isSome
def hexShown (n : Nat) : List Char := Nat.toDigits 16 n
def expandIpv6 (addr : List Char) : Option (List Nat) :=
  let bare := (addr.map Char.toLower).takeWhile (· != '%')
  let whole : Option (List Char) := match bare.tails.find? dottedQuad with
    | none => some bare
    | some tail => match ipv4Octets tail with
      | some [a,b,c,d] => some (bare.take (bare.length-tail.length) ++ hexShown (a <<< 8 ||| b) ++ ':' :: hexShown (c <<< 8 ||| d))
      | _ => none
  whole.bind fun text => match halves text with
    | [text] => (parseGroups text).filter fun groups => groups.length == 8
    | [head,tail] => do
      let head ← parseGroups head
      let tail ← parseGroups tail
      if head.length+tail.length ≤ 8 then some (head ++ List.replicate (8-head.length-tail.length) 0 ++ tail) else none
    | _ => none
def shownIpv4 (high low : Nat) : List Char :=
  List.intercalate ['.'] ([high >>> 8 &&& 0xff,high &&& 0xff,low >>> 8 &&& 0xff,low &&& 0xff].map fun n => (toString n).toList)
def isBlockedIpv6 (addr : List Char) : Bool :=
  match expandIpv6 addr with
  | some [g0,g1,g2,g3,g4,g5,g6,g7] =>
    if [g0,g1,g2,g3,g4,g5,g6,g7].all (· == 0) then true
    else if [g0,g1,g2,g3,g4,g5,g6].all (· == 0) && g7 == 1 then true
    else if [g0,g1,g2,g3,g4].all (· == 0) && (g5 == 0xffff || g5 == 0) then isBlockedIpv4 (shownIpv4 g6 g7)
    else g0 &&& 0xfe00 == 0xfc00 || g0 &&& 0xffc0 == 0xfe80 || g0 &&& 0xff00 == 0xff00
  | _ => true

-- net.isIP: four decimal octets without leading zeros, or eight groups, of which '::' stands for at
-- least one and the last two may be such octets, and a zone.
def isIPv4 (addr : List Char) : Bool :=
  (ipv4Octets addr).isSome && (addr.splitOn '.').all fun part => part.length == 1 || part.head? != some '0'
def groupCount (ends : Bool) (text : List Char) : Option Nat :=
  if text.isEmpty then some 0
  else
    let parts := text.splitOn ':'
    let isGroup := fun part : List Char => !part.isEmpty && part.length ≤ 4 && part.all fun c => (hexDigit c).isSome
    if parts.all isGroup then some parts.length
    else if ends && parts.dropLast.all isGroup && parts.getLast?.any isIPv4 then some (parts.length+1)
    else none
def isIPv6 (addr : List Char) : Bool :=
  let bare := addr.takeWhile (· != '%')
  let zone := addr.dropWhile (· != '%')
  let zoned := zone.isEmpty || (1 < zone.length && zone.tail.all fun c => c.isAlphanum || c == '-' || c == '.' || c == ':')
  zoned && match halves bare with
    | [text] => groupCount true text == some 8
    | [head,tail] => ((groupCount false head).bind fun before => (groupCount true tail).map (before + ·)).any (· ≤ 7)
    | _ => false
def isIP (addr : List Char) : Nat := if isIPv4 addr then 4 else if isIPv6 addr then 6 else 0
def isBlockedAddress (addr : String) : Bool :=
  match isIP addr.toList with
  | 4 => isBlockedIpv4 addr.toList
  | 6 => isBlockedIpv6 addr.toList
  | _ => true

-- The URL parser and the resolver of the platform, and INTEGRATION_ALLOW_PRIVATE_HOSTS. What the
-- resolver answers stays the same during one operation; it throws on a name it cannot resolve.
structure Url where
  protocol : String
  hostname : String
deriving DecidableEq, Repr
structure Net where
  parseUrl : String → Option Url
  lookup : String → Option (List String)
  allowPrivate : Bool
def Url.web (url : Url) : Bool := url.protocol == "http:" || url.protocol == "https:"
def Url.host (url : Url) : String :=
  let inner := if url.hostname.toList.head? = some '[' then url.hostname.toList.drop 1 else url.hostname.toList
  String.ofList (if inner.getLast? = some ']' then inner.dropLast else inner)
-- The text of the SsrfBlockedError, if it throws one.
def assertPublicUrl (net : Net) (rawUrl : String) : Except String Unit :=
  if net.allowPrivate then .ok ()
  else match net.parseUrl rawUrl with
    | none => .error "Invalid URL"
    | some url =>
      if !url.web then .error s!"Blocked URL scheme: {url.protocol}"
      else if url.host.isEmpty then .error "Missing host"
      else if isIP url.host.toList ≠ 0 then
        if isBlockedAddress url.host then .error s!"Blocked (non-public) address: {url.host}" else .ok ()
      else match net.lookup url.host with
        | none => .error s!"Could not resolve host: {url.host}"
        | some resolved =>
          if resolved.isEmpty then .error s!"Host did not resolve: {url.host}"
          else match resolved.find? isBlockedAddress with
            | some address => .error s!"Host {url.host} resolves to a non-public address ({address})"
            | none => .ok ()
def assertOutboundUrlSafe (net : Net) (url : String) : Except RpcError Unit :=
  match assertPublicUrl net url with
  | .ok _ => .ok ()
  | .error message => .error (badRequest s!"Blocked outbound URL: {message}")

-- The addresses a request to a URL goes to.
def addresses (net : Net) (url : Url) : List String :=
  if isIP url.host.toList ≠ 0 then [url.host] else (net.lookup url.host).getD []
def Public (net : Net) (rawUrl : String) : Prop :=
  ∀ url ∈ net.parseUrl rawUrl,∀ address ∈ addresses net url,isBlockedAddress address = false

theorem guard_public {net : Net} {rawUrl : String} (strict : net.allowPrivate = false) (passed : assertPublicUrl net rawUrl = .ok ()) :
    Public net rawUrl := by
  intro url parsed address inside
  simp only [assertPublicUrl,strict,Bool.false_eq_true,if_false,Option.mem_def.mp parsed] at passed
  split at passed
  · cases passed
  split at passed
  · cases passed
  split at passed
  · rename_i literal
    rw [addresses,if_pos literal,List.mem_singleton] at inside
    subst inside
    split at passed
    · cases passed
    · rename_i free
      exact Bool.eq_false_iff.mpr free
  · rename_i named
    rw [addresses,if_neg named] at inside
    split at passed
    · cases passed
    · rename_i resolved answered
      rw [answered,Option.getD_some] at inside
      split at passed
      · cases passed
      split at passed
      · cases passed
      · rename_i none
        exact Bool.eq_false_iff.mpr (List.find?_eq_none.mp none address inside)

example : ["10.0.0.7","127.0.0.1","169.254.169.254","172.31.0.1","::1","::ffff:10.0.0.7","fd00::1","fe80::1%eth0","localhost"].all isBlockedAddress := by
  decide
example : ["93.184.216.34","172.32.0.1","2606:2800:220:1:248:1893:25c8:1946","::ffff:93.184.216.34"].all (! isBlockedAddress ·) := by
  decide

end Elchi.Outbound
