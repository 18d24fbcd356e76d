import Elchi.WebhookSignature
namespace Elchi.Webhooks

-- The text forms of a digest: hex, and base64 with its two alphabets, padded or not.
inductive Encoding where
  | hex | base64
deriving DecidableEq, Repr
def base64Char (n : Nat) : Char :=
  Char.ofNat (if n < 26 then n+65 else if n < 52 then n+71 else if n < 62 then n-4 else if n = 62 then 43 else 47)
def base64Digits : Bytes → List Nat
  | [] => []
  | [a] => [a.toNat/4,a.toNat%4*16]
  | [a,b] => [a.toNat/4,a.toNat%4*16+b.toNat/16,b.toNat%16*4]
  | a :: b :: c :: rest =>
    [a.toNat/4,a.toNat%4*16+b.toNat/16,b.toNat%16*4+c.toNat/64,c.toNat%64] ++ base64Digits rest
def base64Text (bytes : Bytes) : List Char := (base64Digits bytes).map base64Char
def padded (text : List Char) : List Char := text ++ List.replicate ((4-text.length%4)%4) '='
def urlSafe (c : Char) : Char := if c = '+' then '-' else if c = '/' then '_' else c
def encode : Encoding → Bytes → List Char
  | .hex,bytes => hexText bytes
  | .base64,bytes => padded (base64Text bytes)

-- What decodeSignature undoes: the URL-safe alphabet and the padding.
def standard (c : Char) : Char := if c = '-' then '+' else if c = '_' then '/' else c
def stripped (text : List Char) : List Char := (text.reverse.dropWhile (· == '=')).reverse
def hexShaped (text : List Char) : Bool := text.length%2 == 0 && text.all fun c => (hexDigit c).isSome
def Encodes (bytes : Bytes) (text : List Char) : Prop :=
  text.map Char.toLower = hexText bytes ∨ (hexShaped text = false ∧ stripped (text.map standard) = base64Text bytes)

-- A character is one of the 128 of ASCII, or none of the digits and left alone by the mappings.
theorem ascii_or (P : Char → Prop) (low : ∀ m : Fin 128,P (Char.ofNat m)) (high : ∀ c : Char,128 ≤ c.toNat → P c) (c : Char) : P c := by
  by_cases small : c.toNat < 128
  · have each := low ⟨c.toNat,small⟩
    rwa [Char.ofNat_toNat] at each
  · exact high c (by omega)
theorem beyond {c : Char} (large : 128 ≤ c.toNat) (top : Char) (small : top.toNat < 128) : ¬c ≤ top := by
  intro below
  have nat : c.toNat ≤ top.toNat := below
  omega
theorem lower_beyond {c : Char} (large : 128 ≤ c.toNat) : c.toLower = c := by
  have upper : ¬(65 ≤ c.val ∧ c.val ≤ 90) := by
    rintro ⟨-,below⟩
    have nat : c.toNat ≤ 90 := below
    omega
  exact dif_neg upper
-- A digit is looked up in its alphabet.
theorem nowhere {c : Char} (large : 128 ≤ c.toNat) {size : Nat} {char : Nat → Char}
    (small : ∀ m : Fin size,(char m).toNat < 128) : (List.range size).find? (fun n => c == char n) = none := by
  refine List.find?_eq_none.mpr fun n member same => ?_
  have inside := small ⟨n,List.mem_range.mp member⟩
  rw [← beq_iff_eq.mp same] at inside
  omega
theorem hexDigit_find (c : Char) : hexDigit c = (List.range 16).find? fun n => c.toLower == hexChar n := by
  refine ascii_or (fun c => hexDigit c = (List.range 16).find? fun n => c.toLower == hexChar n) (by decide) (fun c large => ?_) c
  rw [lower_beyond large,nowhere large (by decide)]
  simp only [hexDigit,beyond large '9' (by decide),beyond large 'f' (by decide),beyond large 'F' (by decide),and_false,if_false]
theorem base64Digit_find (c : Char) : base64Digit c = (List.range 64).find? fun n => standard c == base64Char n := by
  refine ascii_or (fun c => base64Digit c = (List.range 64).find? fun n => standard c == base64Char n) (by decide)
    (fun c large => ?_) c
  have other : ∀ d : Char,d.toNat < 128 → c ≠ d := by
    rintro d small rfl
    omega
  have same : standard c = c := by simp only [standard,other '-' (by decide),other '_' (by decide),if_false]
  rw [same,nowhere large (by decide)]
  simp only [base64Digit,beyond large 'Z' (by decide),beyond large 'z' (by decide),beyond large '9' (by decide),and_false,if_false,
    other '+' (by decide),other '-' (by decide),other '/' (by decide),other '_' (by decide),or_self]
theorem find_exact {size : Nat} {char : Nat → Char} (apart : ∀ m n : Fin size,char m = char n → m = n) (c : Char) (n : Nat) :
    (List.range size).find? (fun n => c == char n) = some n ↔ n < size ∧ c = char n := by
  constructor
  · intro found
    exact ⟨List.mem_range.mp (List.mem_of_find?_eq_some found),by simpa using List.find?_some found⟩
  · rintro ⟨small,rfl⟩
    cases found : (List.range size).find? (fun m => char n == char m) with
    | none => simpa using List.find?_eq_none.mp found n (List.mem_range.mpr small)
    | some m =>
      have inside := List.mem_range.mp (List.mem_of_find?_eq_some found)
      have same : char n = char m := by simpa using List.find?_some found
      exact congrArg some (congrArg Fin.val (apart ⟨n,small⟩ ⟨m,inside⟩ same)).symm
theorem hexDigit_exact (c : Char) (n : Nat) : hexDigit c = some n ↔ n < 16 ∧ c.toLower = hexChar n := by
  rw [hexDigit_find]
  exact find_exact (by decide) c.toLower n
theorem base64Digit_exact (c : Char) (n : Nat) : base64Digit c = some n ↔ n < 64 ∧ standard c = base64Char n := by
  rw [base64Digit_find]
  exact find_exact (by decide) (standard c) n

theorem hexText_cons (byte : UInt8) (rest : Bytes) :
    hexText (byte :: rest) = hexChar (byte.toNat/16) :: hexChar (byte.toNat%16) :: hexText rest := rfl
theorem hexBytes_exact (text : List Char) (bytes : Bytes) : hexBytes text = some bytes ↔ text.map Char.toLower = hexText bytes := by
  induction text using hexBytes.induct generalizing bytes with
  | case1 =>
    cases bytes with
    | nil => simp [hexBytes,hexText]
    | cons byte rest => simp [hexBytes,hexText_cons]
  | case2 c =>
    cases bytes with
    | nil => simp [hexBytes,hexText]
    | cons byte rest => simp [hexBytes,hexText_cons]
  | case3 high low rest ih =>
    cases bytes with
    | nil => simp [hexBytes,hexText,Option.bind_eq_some_iff]
    | cons byte later =>
      have inside : byte.toNat < 256 := byte.toNat_lt
      simp only [hexBytes,Option.bind_eq_bind,Option.bind_eq_some_iff,Option.some.injEq,List.cons.injEq,List.map_cons,hexText_cons,
        hexDigit_exact]
      constructor
      · rintro ⟨h,⟨few,top⟩,l,⟨less,bottom⟩,after,done,same,rfl⟩
        have value : byte.toNat = 16*h+l := by
          rw [← same,UInt8.toNat_ofNat']
          omega
        refine ⟨?_,?_,(ih _).mp done⟩
        · rw [top,value]
          congr 1
          omega
        · rw [bottom,value]
          congr 1
          omega
      · rintro ⟨top,bottom,done⟩
        refine ⟨_,⟨by omega,top⟩,_,⟨by omega,bottom⟩,_,(ih _).mpr done,?_,rfl⟩
        have whole : 16*(byte.toNat/16)+byte.toNat%16 = byte.toNat := by omega
        rw [whole,UInt8.ofNat_toNat]
theorem hexBytes_shape (text : List Char) : (hexBytes text).isSome = hexShaped text := by
  induction text using hexBytes.induct with
  | case1 => rfl
  | case2 c => rfl
  | case3 high low rest ih =>
    have long : (high :: low :: rest).length%2 = rest.length%2 := by
      simp only [List.length_cons]
      omega
    have parts : hexShaped (high :: low :: rest) = ((hexDigit high).isSome && ((hexDigit low).isSome && hexShaped rest)) := by
      simp only [hexShaped,long,List.all_cons]
      cases rest.length%2 == 0
      · simp
      · simp
    rw [parts,← ih,hexBytes]
    cases hexDigit high with
    | none => rfl
    | some h =>
      cases hexDigit low with
      | none => rfl
      | some l =>
        cases hexBytes rest with
        | none => rfl
        | some bytes => rfl

-- Base64 digits and the bytes they stand for.
theorem base64Digits_small (bytes : Bytes) : ∀ d ∈ base64Digits bytes,d < 64 := by
  induction bytes using base64Digits.induct with
  | case1 => simp [base64Digits]
  | case2 a =>
    have first : a.toNat < 256 := a.toNat_lt
    simp only [base64Digits,List.mem_cons,List.not_mem_nil,or_false]
    rintro d (rfl | rfl)
    · omega
    · omega
  | case3 a b =>
    have first : a.toNat < 256 := a.toNat_lt
    have second : b.toNat < 256 := b.toNat_lt
    simp only [base64Digits,List.mem_cons,List.not_mem_nil,or_false]
    rintro d (rfl | rfl | rfl)
    · omega
    · omega
    · omega
  | case4 a b c rest ih =>
    have first : a.toNat < 256 := a.toNat_lt
    have second : b.toNat < 256 := b.toNat_lt
    have third : c.toNat < 256 := c.toNat_lt
    simp only [base64Digits,List.cons_append,List.nil_append,List.mem_cons]
    rintro d (rfl | rfl | rfl | rfl | later)
    · omega
    · omega
    · omega
    · omega
    · exact ih d later
theorem byte_of {x : Nat} {a : UInt8} (same : x = a.toNat) : UInt8.ofNat x = a := by rw [same,UInt8.ofNat_toNat]
theorem base64Bytes_digits (bytes : Bytes) : base64Bytes (base64Digits bytes) = some bytes := by
  induction bytes using base64Digits.induct with
  | case1 => rfl
  | case2 a =>
    have clean : a.toNat%4*16%16 = 0 := by omega
    simp only [base64Digits,base64Bytes,clean,if_true,byte_of (show a.toNat/4*4+a.toNat%4*16/16 = a.toNat by omega)]
  | case3 a b =>
    have second : b.toNat < 256 := b.toNat_lt
    have clean : b.toNat%16*4%4 = 0 := by omega
    simp only [base64Digits,base64Bytes,clean,if_true,byte_of (show a.toNat/4*4+(a.toNat%4*16+b.toNat/16)/16 = a.toNat by omega),
      byte_of (show (a.toNat%4*16+b.toNat/16)%16*16+b.toNat%16*4/4 = b.toNat by omega)]
  | case4 a b c rest ih =>
    have second : b.toNat < 256 := b.toNat_lt
    have third : c.toNat < 256 := c.toNat_lt
    simp only [base64Digits,List.cons_append,List.nil_append,base64Bytes,ih,Option.map_some,
      byte_of (show a.toNat/4*4+(a.toNat%4*16+b.toNat/16)/16 = a.toNat by omega),
      byte_of (show (a.toNat%4*16+b.toNat/16)%16*16+(b.toNat%16*4+c.toNat/64)/4 = b.toNat by omega),
      byte_of (show (b.toNat%16*4+c.toNat/64)%4*64+c.toNat%64 = c.toNat by omega)]
theorem base64Digits_bytes {digits : List Nat} {bytes : Bytes} (small : ∀ d ∈ digits,d < 64) (read : base64Bytes digits = some bytes) :
    digits = base64Digits bytes := by
  induction digits using base64Bytes.induct generalizing bytes with
  | case1 =>
    cases read
    rfl
  | case2 a => cases read
  | case3 a b clean =>
    obtain ⟨first,second⟩ : a < 64 ∧ b < 64 := by simpa using small
    rw [base64Bytes,if_pos clean] at read
    cases read
    have value : (UInt8.ofNat (a*4+b/16)).toNat = a*4+b/16 := by
      rw [UInt8.toNat_ofNat']
      omega
    simp only [base64Digits,value,List.cons.injEq,and_true]
    omega
  | case4 a b dirty =>
    rw [base64Bytes,if_neg dirty] at read
    cases read
  | case5 a b c clean =>
    obtain ⟨first,second,third⟩ : a < 64 ∧ b < 64 ∧ c < 64 := by simpa using small
    rw [base64Bytes,if_pos clean] at read
    cases read
    have high : (UInt8.ofNat (a*4+b/16)).toNat = a*4+b/16 := by
      rw [UInt8.toNat_ofNat']
      omega
    have low : (UInt8.ofNat (b%16*16+c/4)).toNat = b%16*16+c/4 := by
      rw [UInt8.toNat_ofNat']
      omega
    simp only [base64Digits,high,low,List.cons.injEq,and_true]
    omega
  | case6 a b c dirty =>
    rw [base64Bytes,if_neg dirty] at read
    cases read
  | case7 a b c d rest ih =>
    obtain ⟨first,second,third,fourth,others⟩ : a < 64 ∧ b < 64 ∧ c < 64 ∧ d < 64 ∧ ∀ e ∈ rest,e < 64 := by simpa using small
    rw [base64Bytes,Option.map_eq_some_iff] at read
    obtain ⟨later,done,rfl⟩ := read
    have high : (UInt8.ofNat (a*4+b/16)).toNat = a*4+b/16 := by
      rw [UInt8.toNat_ofNat']
      omega
    have middle : (UInt8.ofNat (b%16*16+c/4)).toNat = b%16*16+c/4 := by
      rw [UInt8.toNat_ofNat']
      omega
    have low : (UInt8.ofNat (c%4*64+d)).toNat = c%4*64+d := by
      rw [UInt8.toNat_ofNat']
      omega
    rw [base64Digits,← ih others done]
    simp only [high,middle,low,List.cons_append,List.nil_append,List.cons.injEq,and_true]
    omega
theorem base64Bytes_exact {digits : List Nat} (small : ∀ d ∈ digits,d < 64) (bytes : Bytes) :
    base64Bytes digits = some bytes ↔ digits = base64Digits bytes := by
  constructor
  · exact base64Digits_bytes small
  · rintro rfl
    exact base64Bytes_digits bytes

-- Reading the characters of a text as digits of an alphabet.
theorem mapM_alphabet {read : Char → Option Nat} {form : Char → Char} {char : Nat → Char} {size : Nat}
    (exact : ∀ c n,read c = some n ↔ n < size ∧ form c = char n) (text : List Char) (digits : List Nat) :
    text.mapM read = some digits ↔ (∀ d ∈ digits,d < size) ∧ text.map form = digits.map char := by
  induction text generalizing digits with
  | nil =>
    cases digits with
    | nil => simp
    | cons d rest => simp
  | cons c later ih =>
    cases digits with
    | nil => simp [Option.bind_eq_some_iff]
    | cons d rest =>
      simp only [List.mapM_cons,Option.bind_eq_bind,Option.bind_eq_some_iff,Option.pure_def,Option.some.injEq,List.cons.injEq,
        exact,List.mem_cons,List.map_cons,forall_eq_or_imp]
      constructor
      · rintro ⟨n,⟨few,same⟩,others,reads,rfl,rfl⟩
        obtain ⟨small,texts⟩ := (ih others).mp reads
        exact ⟨⟨few,small⟩,same,texts⟩
      · rintro ⟨⟨few,small⟩,same,texts⟩
        exact ⟨d,⟨few,same⟩,rest,(ih rest).mpr ⟨small,texts⟩,rfl,rfl⟩
theorem mapM_digits (text : List Char) (digits : List Nat) :
    text.mapM base64Digit = some digits ↔ (∀ d ∈ digits,d < 64) ∧ text.map standard = digits.map base64Char :=
  mapM_alphabet base64Digit_exact text digits
theorem standard_stripped (text : List Char) : stripped (text.map standard) = (stripped text).map standard := by
  have same : ∀ c : Char,(standard c == '=') = (c == '=') := by
    intro c
    rw [standard]
    split
    · rename_i dash
      subst dash
      rfl
    · split
      · rename_i line
        subst line
        rfl
      · rfl
  have drop : ∀ chars : List Char,(chars.map standard).dropWhile (· == '=') = (chars.dropWhile (· == '=')).map standard := by
    intro chars
    induction chars with
    | nil => rfl
    | cons c rest ih =>
      rw [List.map_cons,List.dropWhile_cons,List.dropWhile_cons,same,ih]
      split
      · rfl
      · rfl
  rw [stripped,← List.map_reverse,drop,← List.map_reverse,stripped]
theorem decode_exact (text : List Char) {bytes : Bytes} (present : bytes ≠ []) :
    decodeSignature (String.ofList text) = some bytes ↔ Encodes bytes text := by
  have base : ((stripped text).mapM base64Digit).bind base64Bytes = some bytes ↔ stripped (text.map standard) = base64Text bytes := by
    rw [standard_stripped,Option.bind_eq_some_iff]
    constructor
    · rintro ⟨digits,read,done⟩
      obtain ⟨small,same⟩ := (mapM_digits _ digits).mp read
      rw [same,base64Digits_bytes small done,base64Text]
    · intro same
      exact ⟨base64Digits bytes,(mapM_digits _ _).mpr ⟨base64Digits_small bytes,same⟩,base64Bytes_digits bytes⟩
  unfold decodeSignature Encodes
  rw [← hexBytes_exact,← hexBytes_shape,← base]
  by_cases empty : text = []
  · subst empty
    simp [hexBytes,present.symm]
  · have filled : (String.ofList text).isEmpty = false := by simpa using empty
    rw [filled,String.toList_ofList]
    simp only [Bool.false_eq_true,if_false]
    cases hexBytes text with
    | some other => simp
    | none => simp [stripped]

-- The text that verifyHmacSignature decodes.
def normalisedSignature (signature : String) (stripPrefix : Option String) : String :=
  let trimmed := jsTrim signature
  match stripPrefix with
  | none => trimmed
  | some mark => if mark.toList.isPrefixOf trimmed.toList then String.ofList (trimmed.toList.drop mark.length) else trimmed

section Verifying
variable (digest : String → Bytes → Bytes) (rawBody : Bytes) (signature secret : String) (previousSecret stripPrefix : Option String)

abbrev verdict : Option Verification :=
  verifyHmacSignature (fun secret body => some (digest secret body)) rawBody signature secret previousSecret stripPrefix
abbrev Signs (key : String) : Prop := Encodes (digest key rawBody) (normalisedSignature signature stripPrefix).toList

theorem empty_unread : decodeSignature (normalisedSignature "" stripPrefix) = none := by
  have nothing : ∀ n,String.ofList (([] : List Char).drop n) = "" := fun n => by simp
  have trim : jsTrim "" = "" := by decide
  unfold normalisedSignature
  rw [trim]
  cases stripPrefix with
  | none => rfl
  | some mark =>
    dsimp only
    split
    · exact (congrArg decodeSignature (nothing mark.length)).trans rfl
    · rfl
-- What is said of a signature once its text is read.
def judged (digest : String → Bytes → Bytes) (rawBody : Bytes) (secret : String) (previousSecret : Option String) : Option Bytes → Option Verification
  | none => some (.rejected "malformed_signature")
  | some provided =>
    if digest secret rawBody = provided then some .current
    else match previousSecret with
      | none => some (.rejected "no_match")
      | some previous =>
        if previous.isEmpty then some (.rejected "no_match")
        else some (if digest previous rawBody = provided then .previous else .rejected "no_match")
theorem verdict_exact (present : ∀ key,digest key rawBody ≠ []) :
    (verdict digest rawBody signature secret previousSecret stripPrefix = some .current ↔ Signs digest rawBody signature stripPrefix secret) ∧
    (verdict digest rawBody signature secret previousSecret stripPrefix = some .previous ↔ ¬Signs digest rawBody signature stripPrefix secret ∧
      ∃ previous,previousSecret = some previous ∧ previous ≠ "" ∧ Signs digest rawBody signature stripPrefix previous) ∧
    ∃ outcome,verdict digest rawBody signature secret previousSecret stripPrefix = some outcome := by
  have signs : ∀ key,Signs digest rawBody signature stripPrefix key ↔
      decodeSignature (normalisedSignature signature stripPrefix) = some (digest key rawBody) := by
    intro key
    rw [Signs,← decode_exact _ (present key),String.ofList_toList]
  simp only [signs]
  by_cases empty : signature = ""
  · subst empty
    simp [verdict,verifyHmacSignature,empty_unread]
  have filled : signature.isEmpty = false := by simpa using empty
  have unfolded : verdict digest rawBody signature secret previousSecret stripPrefix =
      judged digest rawBody secret previousSecret (decodeSignature (normalisedSignature signature stripPrefix)) := by
    unfold verdict verifyHmacSignature
    dsimp only
    rw [filled]
    rfl
  rw [unfolded]
  cases decodeSignature (normalisedSignature signature stripPrefix) with
  | none => simp [judged]
  | some provided =>
    unfold judged
    by_cases now : digest secret rawBody = provided
    · simp [now]
    · cases previousSecret with
      | none => simp [now,Ne.symm now]
      | some previous =>
        by_cases blank : previous = ""
        · simp [now,Ne.symm now,blank]
        · by_cases older : digest previous rawBody = provided
          · simp [now,Ne.symm now,blank,older]
          · simp [now,Ne.symm now,blank,older,Ne.symm older]
end Verifying

-- The texts of a digest that a sender may use, in either alphabet.
theorem stripped_padding {text : List Char} (plain : ∀ c ∈ text,c ≠ '=') (size : Nat) : stripped (text ++ List.replicate size '=') = text := by
  have front : ∀ (chars : List Char),(∀ c ∈ chars,c ≠ '=') → chars.dropWhile (· == '=') = chars := by
    intro chars each
    cases chars with
    | nil => rfl
    | cons c rest => rw [List.dropWhile_cons_of_neg (by simpa using each c List.mem_cons_self)]
  have back : (List.replicate size '=' ++ text.reverse).dropWhile (· == '=') = text.reverse := by
    induction size with
    | zero => exact front _ fun c member => plain c (List.mem_reverse.mp member)
    | succ size ih => rw [List.replicate_succ,List.cons_append,List.dropWhile_cons_of_pos (by rfl),ih]
  rw [stripped,List.reverse_append,List.reverse_replicate,back,List.reverse_reverse]
theorem digits_length (bytes : Bytes) : (base64Digits bytes).length = bytes.length/3*4+(if bytes.length%3 = 0 then 0 else bytes.length%3+1) := by
  induction bytes using base64Digits.induct with
  | case1 => rfl
  | case2 a => simp [base64Digits]
  | case3 a b => simp [base64Digits]
  | case4 a b c rest ih =>
    simp only [base64Digits,List.length_append,List.length_cons,List.length_nil,ih]
    have div : (rest.length+1+1+1)/3 = rest.length/3+1 := by omega
    have mod : (rest.length+1+1+1)%3 = rest.length%3 := by omega
    rw [div,mod]
    omega
def alphabets : List (Char → Char) := [id,urlSafe]
theorem alphabet_char {f : Char → Char} (listed : f ∈ alphabets) {n : Nat} (few : n < 64) :
    standard (f (base64Char n)) = base64Char n ∧ f (base64Char n) ≠ '=' ∧ jsSpace (f (base64Char n)) = false := by
  have each : ∀ m : Fin 64,(standard (base64Char m) = base64Char m ∧ base64Char m ≠ '=' ∧ jsSpace (base64Char m) = false) ∧
      standard (urlSafe (base64Char m)) = base64Char m ∧ urlSafe (base64Char m) ≠ '=' ∧ jsSpace (urlSafe (base64Char m)) = false := by
    decide
  have both := each ⟨n,few⟩
  rcases List.mem_cons.mp listed with rfl | other
  · exact both.1
  · obtain rfl := List.mem_singleton.mp other
    exact both.2
def spelled (f : Char → Char) (bytes : Bytes) (padding : Nat) : List Char := (base64Text bytes).map f ++ List.replicate padding '='
theorem spelled_plain {f : Char → Char} (listed : f ∈ alphabets) (bytes : Bytes) (padding : Nat) :
    ∀ c ∈ spelled f bytes padding,jsSpace c = false := by
  intro c member
  rcases List.mem_append.mp member with body | tail
  · obtain ⟨_,inside,rfl⟩ := List.mem_map.mp body
    obtain ⟨n,digit,rfl⟩ := List.mem_map.mp inside
    exact (alphabet_char listed (base64Digits_small bytes n digit)).2.2
  · obtain ⟨-,rfl⟩ := List.mem_replicate.mp tail
    decide
theorem spelled_encodes {f : Char → Char} (listed : f ∈ alphabets) (bytes : Bytes) {padding : Nat}
    (shape : hexShaped (spelled f bytes padding) = false) : Encodes bytes (spelled f bytes padding) := by
  refine .inr ⟨shape,?_⟩
  have back : (base64Text bytes).map (standard ∘ f) = base64Text bytes := by
    rw [base64Text,List.map_map]
    exact List.map_congr_left fun n digit => (alphabet_char listed (base64Digits_small bytes n digit)).1
  have equals : standard '=' = '=' := rfl
  rw [spelled,List.map_append,List.map_map,List.map_replicate,equals,back]
  refine stripped_padding (fun c member => ?_) padding
  obtain ⟨n,digit,rfl⟩ := List.mem_map.mp member
  exact (alphabet_char List.mem_cons_self (base64Digits_small bytes n digit)).2.1
theorem padded_shape {f : Char → Char} {bytes : Bytes} {padding : Nat} (some' : padding ≠ 0) : hexShaped (spelled f bytes padding) = false := by
  have equals : (hexDigit '=').isSome = false := rfl
  have inside : '=' ∈ spelled f bytes padding := List.mem_append_right _ (List.mem_replicate.mpr ⟨some',rfl⟩)
  rw [hexShaped,Bool.and_eq_false_iff]
  exact .inr (List.all_eq_false.mpr ⟨_,inside,by simp [equals]⟩)
theorem bare_shape {f : Char → Char} {bytes : Bytes} (size : bytes.length%3 = 2) : hexShaped (spelled f bytes 0) = false := by
  have long : (spelled f bytes 0).length = bytes.length/3*4+3 := by
    simp [spelled,base64Text,digits_length,size]
  rw [hexShaped,Bool.and_eq_false_iff]
  refine .inl ?_
  rw [long]
  simp
  omega
theorem hexText_encodes (bytes : Bytes) : Encodes bytes (hexText bytes) := .inl ((hexBytes_exact _ _).mp (hexBytes_text bytes))

-- computeHmacSignature in either encoding.
def computeHmacSignatureAs (digest : String → Bytes → Option Bytes) (rawBody : Bytes) (secret : String) (encoding : Encoding) : Option String :=
  (digest secret rawBody).map fun bytes => String.ofList (encode encoding bytes)
theorem hex_default (digest : String → Bytes → Option Bytes) (rawBody : Bytes) (secret : String) :
    computeHmacSignatureAs digest rawBody secret .hex = computeHmacSignature digest rawBody secret := rfl
theorem accepted_of {digest : String → Bytes → Bytes} {rawBody : Bytes} {secret : String} (previousSecret : Option String)
    (present : ∀ key,digest key rawBody ≠ []) {text : List Char} (plain : ∀ c ∈ text,jsSpace c = false)
    (encodes : Encodes (digest secret rawBody) text) :
    verdict digest rawBody (String.ofList text) secret previousSecret none = some .current := by
  refine (verdict_exact digest rawBody (String.ofList text) secret previousSecret none present).1.mpr ?_
  rw [Signs,normalisedSignature,jsTrim_plain plain,String.toList_ofList]
  exact encodes
theorem padding_spelled (bytes : Bytes) {f : Char → Char} (listed : f ∈ alphabets) :
    (encode .base64 bytes).map f = spelled f bytes ((4-(base64Text bytes).length%4)%4) := by
  have equals : f '=' = '=' := by
    rcases List.mem_cons.mp listed with rfl | other
    · rfl
    · obtain rfl := List.mem_singleton.mp other
      rfl
  rw [encode,padded,List.map_append,List.map_replicate,equals,spelled]
theorem encode_accepted {digest : String → Bytes → Bytes} {rawBody : Bytes} {secret : String} (previousSecret : Option String)
    (sized : ∀ key,(digest key rawBody).length ∈ [20,32,64]) (encoding : Encoding) {f : Char → Char} (listed : f ∈ alphabets) :
    verdict digest rawBody (String.ofList ((encode encoding (digest secret rawBody)).map f)) secret previousSecret none = some .current := by
  have present : ∀ key,digest key rawBody ≠ [] := by
    intro key nothing
    have size := sized key
    rw [nothing] at size
    revert size
    decide
  cases encoding with
  | hex =>
    have kept : (hexText (digest secret rawBody)).map f = hexText (digest secret rawBody) := by
      refine (List.map_congr_left fun c member => ?_).trans (List.map_id _)
      obtain ⟨byte,-,inside⟩ := List.mem_flatMap.mp member
      have small : byte.toNat < 256 := byte.toNat_lt
      have digit : ∀ m : Fin 16,urlSafe (hexChar m) = hexChar m := by decide
      obtain ⟨m,few,rfl⟩ : ∃ m,m < 16 ∧ c = hexChar m := by
        simp only [List.mem_cons,List.not_mem_nil,or_false] at inside
        rcases inside with rfl | rfl
        · exact ⟨_,by omega,rfl⟩
        · exact ⟨_,by omega,rfl⟩
      rcases List.mem_cons.mp listed with rfl | other
      · rfl
      · obtain rfl := List.mem_singleton.mp other
        exact digit ⟨m,few⟩
    rw [encode,kept]
    exact accepted_of previousSecret present (hexText_plain _) (hexText_encodes _)
  | base64 =>
    rw [padding_spelled _ listed]
    refine accepted_of previousSecret present (spelled_plain listed _ _) (spelled_encodes listed _ (padded_shape ?_))
    have size := sized secret
    simp only [List.mem_cons,List.not_mem_nil,or_false] at size
    rw [base64Text,List.length_map,digits_length]
    rcases size with size | size | size
    · simp [size]
    · simp [size]
    · simp [size]
theorem bare_accepted {digest : String → Bytes → Bytes} {rawBody : Bytes} {secret : String} (previousSecret : Option String)
    (present : ∀ key,digest key rawBody ≠ []) (size : (digest secret rawBody).length ∈ [20,32]) {f : Char → Char} (listed : f ∈ alphabets) :
    verdict digest rawBody (String.ofList ((base64Text (digest secret rawBody)).map f)) secret previousSecret none = some .current := by
  have whole : (base64Text (digest secret rawBody)).map f = spelled f (digest secret rawBody) 0 := by simp [spelled]
  rw [whole]
  refine accepted_of previousSecret present (spelled_plain listed _ _) (spelled_encodes listed _ (bare_shape ?_))
  simp only [List.mem_cons,List.not_mem_nil,or_false] at size
  rcases size with size | size
  · rw [size]
  · rw [size]

-- A signature is accepted exactly when it is a text of the digest, and every text a sender computes is.
theorem signatures_exact (digest : String → Bytes → Bytes) (sized : ∀ secret rawBody,(digest secret rawBody).length ∈ [20,32,64])
    (rawBody : Bytes) (signature secret : String) (previousSecret stripPrefix : Option String) :
    let signs := fun key => Encodes (digest key rawBody) (normalisedSignature signature stripPrefix).toList
    let before := ∃ previous,previousSecret = some previous ∧ previous ≠ "" ∧ signs previous
    let given := verifyHmacSignature (fun key body => some (digest key body)) rawBody signature secret previousSecret stripPrefix
    (given = some .current ↔ signs secret) ∧ (given = some .previous ↔ ¬signs secret ∧ before) ∧
    ((∃ reason,given = some (.rejected reason)) ↔ ¬signs secret ∧ ¬before) ∧
    ∀ f ∈ alphabets,
      (∀ encoding,∃ text,computeHmacSignatureAs (fun key body => some (digest key body)) rawBody secret encoding = some (String.ofList text) ∧
        verifyHmacSignature (fun key body => some (digest key body)) rawBody (String.ofList (text.map f)) secret previousSecret none =
          some .current) ∧
      ((digest secret rawBody).length ∈ [20,32] → verifyHmacSignature (fun key body => some (digest key body)) rawBody
        (String.ofList ((base64Text (digest secret rawBody)).map f)) secret previousSecret none = some .current) := by
  intro signs before given
  have present : ∀ key,digest key rawBody ≠ [] := by
    intro key nothing
    have size := sized key rawBody
    rw [nothing] at size
    revert size
    decide
  obtain ⟨current,previous,outcome,same⟩ := verdict_exact digest rawBody signature secret previousSecret stripPrefix present
  refine ⟨current,previous,?_,fun f listed => ⟨fun encoding => ⟨_,rfl,?_⟩,fun size => ?_⟩⟩
  · constructor
    · rintro ⟨reason,refused⟩
      constructor
      · intro signed
        exact absurd ((current.mpr signed).symm.trans refused) (by simp)
      · intro older
        by_cases signed : signs secret
        · exact absurd ((current.mpr signed).symm.trans refused) (by simp)
        · exact absurd ((previous.mpr ⟨signed,older⟩).symm.trans refused) (by simp)
    · rintro ⟨unsigned,nobody⟩
      cases outcome with
      | current => exact absurd (current.mp same) unsigned
      | previous => exact absurd (previous.mp same).2 nobody
      | rejected reason => exact ⟨reason,same⟩
  · exact encode_accepted previousSecret (fun key => sized key rawBody) encoding listed
  · exact bare_accepted previousSecret present size listed
theorem signatures_exact_zeros : verifyHmacSignature (fun _ _ => some (List.replicate 20 0)) [] "AAAAAAAAAAAAAAAAAAAAAAAAAAA" "key" none none =
    some .current := by
  have accepted := (signatures_exact (fun _ _ => List.replicate 20 0) (by simp) [] "" "key" none none).2.2.2 id (by simp [alphabets])
  exact accepted.2 (by simp)

end Elchi.Webhooks
