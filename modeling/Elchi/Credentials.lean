import Elchi.ProviderWebhooks
namespace Elchi.Credentials
open Webhooks (Bytes hexDigit hexChar hexText hexDigit_char truthy)

-- Text as UTF-8, and back as a Buffer shows it: what is not UTF-8 is replaced.
def utf8 (text : String) : Bytes := text.toByteArray.data.toList
structure Sequence where
  needed : Nat
  point : Nat
  lower : Nat
  upper : Nat
def Sequence.idle : Sequence := ⟨0,0,0,0⟩
def replacement : Char := '\uFFFD'
def leadByte (byte : Nat) : List Char × Sequence :=
  if byte < 0x80 then ([Char.ofNat byte],.idle)
  else if byte < 0xC2 then ([replacement],.idle)
  else if byte < 0xE0 then ([],⟨1,byte-0xC0,0x80,0xBF⟩)
  else if byte < 0xF0 then ([],⟨2,byte-0xE0,if byte = 0xE0 then 0xA0 else 0x80,if byte = 0xED then 0x9F else 0xBF⟩)
  else if byte < 0xF5 then ([],⟨3,byte-0xF0,if byte = 0xF0 then 0x90 else 0x80,if byte = 0xF4 then 0x8F else 0xBF⟩)
  else ([replacement],.idle)
def nextByte (state : Sequence) (byte : Nat) : List Char × Sequence :=
  if state.needed = 0 then leadByte byte
  else if byte < state.lower ∨ state.upper < byte then (replacement :: (leadByte byte).1,(leadByte byte).2)
  else
    let point := state.point*64+(byte-0x80)
    if state.needed = 1 then ([Char.ofNat point],.idle) else ([],⟨state.needed-1,point,0x80,0xBF⟩)
def replaced (state : Sequence) : Bytes → List Char
  | [] => if state.needed = 0 then [] else [replacement]
  | byte :: rest => (nextByte state byte.toNat).1 ++ replaced (nextByte state byte.toNat).2 rest
def bufferText (bytes : Bytes) : String :=
  (String.fromUTF8? ⟨bytes.toArray⟩).getD (String.ofList (replaced .idle bytes))
-- Hex digits up to the first pair that is none.
def hexBuffer : List Char → Bytes
  | high :: low :: rest => match hexDigit high,hexDigit low with
    | some h,some l => UInt8.ofNat (16*h+l) :: hexBuffer rest
    | _,_ => []
  | _ => []

-- createCipheriv and createDecipheriv under aes-256-cbc; a decryption that throws gives nothing. It is
-- not said what one gives under another key.
structure Cipher (K : Type) where
  encrypt : K → Bytes → Bytes → Bytes
  decrypt : K → Bytes → Bytes → Option Bytes
  inverts : ∀ key iv plain,iv.length = 16 → decrypt key iv (encrypt key iv plain) = some plain
  padded : ∀ key iv plain,encrypt key iv plain ≠ []
abbrev Iv := {bytes : Bytes // bytes.length = 16}
structure Keyring (K : Type) where
  primary : K
  previous : Option K

section Cipher
variable {K : Type} (cipher : Cipher K) (keys : Keyring K)

def mark : List Char := ['e','n','c',':']
def marked (text : String) : Bool := mark.isPrefixOf text.toList
def sealText (key : K) (iv : Iv) (value : String) : String :=
  String.ofList (mark ++ hexText iv.val ++ ':' :: hexText (cipher.encrypt key iv.val (utf8 value)))
def encryptCredential (iv : Iv) (value : Option String) : Option String :=
  (truthy value).map fun text => if marked text then text else sealText cipher keys.primary iv text
def tryKey (iv encrypted : Bytes) (key : K) : Option String := (cipher.decrypt key iv encrypted).map bufferText
def decryptCredential (value : Option String) : Option String :=
  (truthy value).map fun text =>
    if marked text then match text.toList.splitOn ':' with
      | _ :: iv :: encrypted :: _ =>
        if iv.isEmpty || encrypted.isEmpty then text
        else ((tryKey cipher (hexBuffer iv) (hexBuffer encrypted) keys.primary).or
          (keys.previous.bind (tryKey cipher (hexBuffer iv) (hexBuffer encrypted)))).getD text
      | _ => text
    else text

end Cipher

theorem bufferText_utf8 (text : String) : bufferText (utf8 text) = text := by
  have valid : String.fromUTF8? text.toByteArray = some text := dif_pos text.isValidUTF8
  unfold bufferText utf8
  rw [Array.toArray_toList,valid]
  rfl
theorem hexBuffer_text (bytes : Bytes) : hexBuffer (hexText bytes) = bytes := by
  induction bytes with
  | nil => rfl
  | cons byte rest ih =>
    have inside : byte.toNat < 256 := byte.toNat_lt
    have high := hexDigit_char (byte.toNat/16) (by omega)
    have low := hexDigit_char (byte.toNat%16) (by omega)
    have whole : 16*(byte.toNat/16)+byte.toNat%16 = byte.toNat := by omega
    have step : hexText (byte :: rest) = hexChar (byte.toNat/16) :: hexChar (byte.toNat%16) :: hexText rest := rfl
    simp only [step,hexBuffer,high,low,ih,whole,UInt8.ofNat_toNat]
theorem hexText_colon (bytes : Bytes) : ':' ∉ hexText bytes := by
  have digit : ∀ n,n < 16 → ':' ≠ hexChar n := fun n small => by
    have checked : ∀ m : Fin 16,':' ≠ hexChar m := by decide
    exact checked ⟨n,small⟩
  intro member
  obtain ⟨byte,-,inside⟩ := List.mem_flatMap.mp member
  have small : byte.toNat < 256 := byte.toNat_lt
  simp only [List.mem_cons,List.not_mem_nil,or_false] at inside
  rcases inside with same | same
  · exact digit _ (by omega) same
  · exact digit _ (by omega) same
theorem hexText_empty (bytes : Bytes) : (hexText bytes).isEmpty = bytes.isEmpty := by
  cases bytes with
  | nil => rfl
  | cons byte rest => rfl

section Sealed
variable {K : Type} {cipher : Cipher K} {keys : Keyring K}

variable (cipher) in
theorem seal_marked (key : K) (iv : Iv) (value : String) : marked (sealText cipher key iv value) = true := by
  rw [marked,sealText,String.toList_ofList,List.isPrefixOf_iff_prefix]
  exact List.prefix_append _ _
theorem seal_truthy (key : K) (iv : Iv) (value : String) : truthy (some (sealText cipher key iv value)) = some (sealText cipher key iv value) := by
  have nonempty : (sealText cipher key iv value).isEmpty = false := by simp [sealText,mark]
  simp [truthy,nonempty]
theorem seal_split (key : K) (iv : Iv) (value : String) :
    (sealText cipher key iv value).toList.splitOn ':' = [['e','n','c'],hexText iv.val,hexText (cipher.encrypt key iv.val (utf8 value))] := by
  have parts : (sealText cipher key iv value).toList =
      [':'].intercalate [['e','n','c'],hexText iv.val,hexText (cipher.encrypt key iv.val (utf8 value))] := by
    simp [sealText,mark,List.intercalate]
  rw [parts]
  refine List.splitOn_intercalate ':' ?_ (List.cons_ne_nil _ _)
  intro part member
  simp only [List.mem_cons,List.not_mem_nil,or_false] at member
  rcases member with rfl | rfl | rfl
  · decide
  · exact hexText_colon _
  · exact hexText_colon _
theorem truthy_again (value : Option String) : truthy (truthy value) = truthy value := by
  simp [truthy,Option.filter_filter]
theorem encrypt_truthy (iv : Iv) (value : Option String) :
    encryptCredential cipher keys iv (truthy value) = encryptCredential cipher keys iv value := by
  rw [encryptCredential,encryptCredential,truthy_again]
variable (cipher keys) in
theorem truthy_encrypt (iv : Iv) (value : Option String) :
    truthy (encryptCredential cipher keys iv value) = encryptCredential cipher keys iv value := by
  unfold encryptCredential
  cases filled : truthy value with
  | none => rfl
  | some text =>
    have again := truthy_again value
    rw [filled] at again
    simp only [Option.map_some]
    split
    · exact again
    · exact seal_truthy keys.primary iv text
-- What a sealed value reads as: under the primary key if that decrypts at all.
theorem decrypt_sealed (key : K) (iv : Iv) (value : String) :
    decryptCredential cipher keys (some (sealText cipher key iv value)) =
      some (((tryKey cipher iv.val (cipher.encrypt key iv.val (utf8 value)) keys.primary).or
        (keys.previous.bind (tryKey cipher iv.val (cipher.encrypt key iv.val (utf8 value))))).getD (sealText cipher key iv value)) := by
  have filled : iv.val.isEmpty = false := by
    rw [List.isEmpty_eq_false_iff]
    intro none
    have long := iv.property
    rw [none] at long
    cases long
  have padded : (cipher.encrypt key iv.val (utf8 value)).isEmpty = false := List.isEmpty_eq_false_iff.mpr (cipher.padded key iv.val (utf8 value))
  simp only [decryptCredential,seal_truthy,Option.map_some,seal_marked,if_true,seal_split,hexText_empty,filled,padded,Bool.or_false,
    Bool.false_eq_true,if_false,hexBuffer_text]
theorem try_own (key : K) (iv : Iv) (value : String) : tryKey cipher iv.val (cipher.encrypt key iv.val (utf8 value)) key = some value := by
  rw [tryKey,cipher.inverts key iv.val (utf8 value) iv.property]
  exact congrArg some (bufferText_utf8 value)
theorem seal_round_trip (iv : Iv) (value : String) : decryptCredential cipher keys (some (sealText cipher keys.primary iv value)) = some value := by
  rw [decrypt_sealed,try_own]
  rfl
-- With the key of before kept, a value sealed under it is read unless the primary key decrypts it to
-- something else.
theorem seal_rotated {key : K} (kept : keys.previous = some key) (iv : Iv) (value : String) :
    decryptCredential cipher keys (some (sealText cipher key iv value)) = some value ↔
      ∀ text ∈ tryKey cipher iv.val (cipher.encrypt key iv.val (utf8 value)) keys.primary,text = value := by
  rw [decrypt_sealed,kept,Option.bind_some,try_own]
  cases tryKey cipher iv.val (cipher.encrypt key iv.val (utf8 value)) keys.primary with
  | none => simp
  | some text => simp
-- Two sealed texts are the same when their iv and their ciphertext are.
theorem seal_injective {left right : K} {iv other : Iv} {value : String} (same : sealText cipher left iv value = sealText cipher right other value) :
    cipher.encrypt left iv.val (utf8 value) = cipher.encrypt right iv.val (utf8 value) := by
  have parts := congrArg (fun text => text.toList.splitOn ':') same
  simp only [seal_split,List.cons.injEq,true_and,and_true] at parts
  have ivs := congrArg hexBuffer parts.1
  have texts := congrArg hexBuffer parts.2
  rw [hexBuffer_text,hexBuffer_text] at ivs texts
  rw [texts,ivs]

end Sealed

end Elchi.Credentials
