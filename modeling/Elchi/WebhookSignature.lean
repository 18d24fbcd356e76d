import Elchi.Common
namespace Elchi.Webhooks

abbrev Bytes := List UInt8

def hexDigit (c : Char) : Option Nat :=
  if '0' ≤ c ∧ c ≤ '9' then some (c.toNat - 48)
  else if 'a' ≤ c ∧ c ≤ 'f' then some (c.toNat - 87)
  else if 'A' ≤ c ∧ c ≤ 'F' then some (c.toNat - 55)
  else none
def hexBytes : List Char → Option Bytes
  | [] => some []
  | [_] => none
  | high :: low :: rest => do
    let h ← hexDigit high
    let l ← hexDigit low
    let bytes ← hexBytes rest
    some (UInt8.ofNat (16*h+l) :: bytes)

-- Standard and URL-safe base64 digits.
def base64Digit (c : Char) : Option Nat :=
  if 'A' ≤ c ∧ c ≤ 'Z' then some (c.toNat - 65)
  else if 'a' ≤ c ∧ c ≤ 'z' then some (c.toNat - 71)
  else if '0' ≤ c ∧ c ≤ '9' then some (c.toNat+4)
  else if c = '+' ∨ c = '-' then some 62
  else if c = '/' ∨ c = '_' then some 63
  else none
-- The bytes that encode back to these digits, if there are any.
def base64Bytes : List Nat → Option Bytes
  | [] => some []
  | [_] => none
  | [a,b] => if b%16 = 0 then some [UInt8.ofNat (a*4+b/16)] else none
  | [a,b,c] => if c%4 = 0 then some [UInt8.ofNat (a*4+b/16),UInt8.ofNat (b%16*16+c/4)] else none
  | a :: b :: c :: d :: rest => (base64Bytes rest).map fun bytes =>
    UInt8.ofNat (a*4+b/16) :: UInt8.ofNat (b%16*16+c/4) :: UInt8.ofNat (c%4*64+d) :: bytes

-- An even number of hex digits is read as hex, everything else as base64, whose padding counts for
-- nothing.
def decodeSignature (input : String) : Option Bytes :=
  if input.isEmpty then none
  else (hexBytes input.toList).or
    (((input.toList.reverse.dropWhile (· == '=')).reverse.mapM base64Digit).bind base64Bytes)

inductive Verification where
  | current
  | previous
  | rejected (reason : String)
deriving DecidableEq, Repr
def Verification.valid : Verification → Bool
  | .rejected _ => false
  | _ => true

-- `digest` is createHmac under the algorithm of the integration; it throws on one it does not know.
def verifyHmacSignature (digest : String → Bytes → Option Bytes) (rawBody : Bytes) (signature secret : String)
    (previousSecret stripPrefix : Option String) : Option Verification :=
  let trimmed := jsTrim signature
  let normalised := match stripPrefix with
    | none => trimmed
    | some mark => if mark.toList.isPrefixOf trimmed.toList then String.ofList (trimmed.toList.drop mark.length) else trimmed
  if signature.isEmpty then some (.rejected "empty_signature")
  else match decodeSignature normalised with
  | none => some (.rejected "malformed_signature")
  | some provided => do
    let expected ← digest secret rawBody
    if expected = provided then some .current
    else match previousSecret with
      | none => some (.rejected "no_match")
      | some previous =>
        if previous.isEmpty then some (.rejected "no_match")
        else do
          let older ← digest previous rawBody
          some (if older = provided then .previous else .rejected "no_match")

-- computeHmacSignature in its default encoding.
def hexChar (n : Nat) : Char := Char.ofNat (if n < 10 then n+48 else n+87)
def hexText (bytes : Bytes) : List Char := bytes.flatMap fun byte => [hexChar (byte.toNat/16),hexChar (byte.toNat%16)]
def computeHmacSignature (digest : String → Bytes → Option Bytes) (rawBody : Bytes) (secret : String) : Option String :=
  (digest secret rawBody).map fun bytes => String.ofList (hexText bytes)

theorem hexDigit_char (n : Nat) (small : n < 16) : hexDigit (hexChar n) = some n := by
  have checked : ∀ m : Fin 16,hexDigit (hexChar m) = some m.val := by decide
  exact checked ⟨n,small⟩
theorem hexChar_plain (n : Nat) (small : n < 16) : jsSpace (hexChar n) = false := by
  have checked : ∀ m : Fin 16,jsSpace (hexChar m) = false := by decide
  exact checked ⟨n,small⟩
theorem hexBytes_text (bytes : Bytes) : hexBytes (hexText bytes) = some bytes := by
  induction bytes with
  | nil => rfl
  | cons byte rest ih =>
    have inside : byte.toNat < 256 := byte.toNat_lt
    have high := hexDigit_char (byte.toNat/16) (by omega)
    have low := hexDigit_char (byte.toNat%16) (by omega)
    have whole : 16*(byte.toNat/16)+byte.toNat%16 = byte.toNat := by omega
    have step : hexText (byte :: rest) = hexChar (byte.toNat/16) :: hexChar (byte.toNat%16) :: hexText rest := rfl
    simp only [step,hexBytes,high,low,ih,Option.bind_eq_bind,Option.bind_some,whole,UInt8.ofNat_toNat]
theorem hexText_plain (bytes : Bytes) : ∀ c ∈ hexText bytes,jsSpace c = false := by
  intro c member
  obtain ⟨byte,-,inside⟩ := List.mem_flatMap.mp member
  have small : byte.toNat < 256 := byte.toNat_lt
  simp only [List.mem_cons,List.not_mem_nil,or_false] at inside
  rcases inside with rfl | rfl
  · exact hexChar_plain _ (by omega)
  · exact hexChar_plain _ (by omega)
theorem jsTrim_plain {text : List Char} (plain : ∀ c ∈ text,jsSpace c = false) : jsTrim (String.ofList text) = String.ofList text := by
  have front : ∀ chars : List Char,(∀ c ∈ chars,jsSpace c = false) → chars.dropWhile jsSpace = chars := by
    intro chars each
    cases chars with
    | nil => rfl
    | cons c rest => rw [List.dropWhile_cons_of_neg (by simp [each c List.mem_cons_self])]
  unfold jsTrim
  rw [String.toList_ofList,front text plain,front text.reverse (fun c member => plain c (List.mem_reverse.mp member)),List.reverse_reverse]

-- What the partner signs with the secret of either period is accepted.
theorem signed_valid {digest : String → Bytes → Option Bytes} (signed : digest secret rawBody = some bytes) (present : bytes ≠ [])
    (previousSecret : Option String) :
    ∃ signature,computeHmacSignature digest rawBody secret = some signature ∧
      verifyHmacSignature digest rawBody signature secret previousSecret none = some .current := by
  refine ⟨_,by rw [computeHmacSignature,signed]; rfl,?_⟩
  have nonempty : (String.ofList (hexText bytes)).isEmpty = false := by
    cases bytes with
    | nil => exact absurd rfl present
    | cons byte rest => simp [hexText]
  unfold verifyHmacSignature
  simp only [jsTrim_plain (hexText_plain bytes),nonempty,decodeSignature,String.toList_ofList,hexBytes_text]
  simp [signed]

end Elchi.Webhooks
