import Elchi.OutboundGuard
import Elchi.SignatureTexts
import Mathlib.Data.List.Forall2
namespace Elchi.Outbound
open Webhooks (hexDigit)

-- The standard text forms. Four octets in decimal, without leading zeros.
def decimal (n : Nat) : List Char := Nat.toDigits 10 n
structure Octets where
  a : Fin 256
  b : Fin 256
  c : Fin 256
  d : Fin 256
def Octets.list (octets : Octets) : List Nat := [octets.a,octets.b,octets.c,octets.d]
def Octets.text (octets : Octets) : List Char := List.intercalate ['.'] (octets.list.map decimal)
def Octets.value (octets : Octets) : Nat := ((octets.a*256+octets.b)*256+octets.c)*256+octets.d
def Octets.groups (octets : Octets) : List Nat := [octets.a*256+octets.b,octets.c*256+octets.d]

-- A group of one to four hex digits of either case.
def hexValue (part : List Char) : Option Nat :=
  if part.isEmpty || 4 < part.length then none
  else (part.mapM hexDigit).map fun digits => digits.foldl (fun n d => 16*n+d) 0
def Group (part : List Char) (n : Nat) : Prop := hexValue part = some n
def joined (parts : List (List Char)) : List Char := List.intercalate [':'] parts
section Forms
-- What counts as a group.
variable (G : List Char → Nat → Prop)

-- Groups with ':' between them, and the same with octets for the last two.
def Groups (text : List Char) (values : List Nat) : Prop := ∃ parts,List.Forall₂ G parts values ∧ text = joined parts
def Ending (text : List Char) (values : List Nat) : Prop := Groups G text values ∨ ∃ parts front,∃ octets : Octets,
  List.Forall₂ G parts front ∧ text = joined (parts ++ [octets.text]) ∧ values = front ++ octets.groups
-- Eight groups, of which '::' stands for one or more that are zero.
def Bare (E : List Char → List Nat → Prop) (text : List Char) (values : List Nat) : Prop := (E text values ∧ values.length = 8) ∨
  ∃ head tail front back,text = head ++ ':' :: ':' :: tail ∧ Groups G head front ∧ E tail back ∧ front.length+back.length ≤ 7 ∧
    values = front ++ List.replicate (8-front.length-back.length) 0 ++ back

end Forms
def Zone (zone : List Char) : Prop := zone = [] ∨ ∃ c name,zone = '%' :: c :: name ∧
  (c :: name).all (fun c => c.isAlphanum || c == '-' || c == '.' || c == ':') = true
def Text4 (addr : List Char) (octets : Octets) : Prop := addr = octets.text
def Text6 (addr : List Char) (values : List Nat) : Prop := ∃ bare zone,addr = bare ++ zone ∧ Zone zone ∧ Bare Group (Ending Group) bare values

-- Octets.
theorem digit_exact (c : Char) (n : Nat) : digit c = some n ↔ n < 10 ∧ id c = Nat.digitChar n := by
  have find : digit c = (List.range 10).find? fun n => c == Nat.digitChar n := by
    refine Webhooks.ascii_or (fun c => digit c = (List.range 10).find? fun n => c == Nat.digitChar n) (by decide) (fun c large => ?_) c
    rw [Webhooks.nowhere large (by decide)]
    simp only [digit,Webhooks.beyond large '9' (by decide),and_false,if_false]
  rw [find]
  exact Webhooks.find_exact (by decide) c n
theorem decimals (n : Fin 256) :
    (octet (decimal n) = some n.val ∧ '.' ∉ decimal n ∧ ':' ∉ decimal n ∧ ((decimal n).length = 1 ∨ (decimal n).head? ≠ some '0')) ∧
    (!(decimal n).isEmpty && decide ((decimal n).length ≤ 3) && (decimal n).all fun c => (digit c).isSome) = true ∧
    (decimal n).map Char.toLower = decimal n ∧ '%' ∉ decimal n := by
  revert n
  decide +kernel
theorem octet_decimal (n : Fin 256) :
    octet (decimal n) = some n.val ∧ '.' ∉ decimal n ∧ ':' ∉ decimal n ∧ ((decimal n).length = 1 ∨ (decimal n).head? ≠ some '0') :=
  (decimals n).1
theorem octet_printed {part : List Char} {n : Nat} (read : octet part = some n) (plain : part.length = 1 ∨ part.head? ≠ some '0') :
    ∃ small : n < 256,part = decimal (⟨n,small⟩ : Fin 256) := by
  unfold octet at read
  split at read
  · cases read
  rename_i size
  simp only [Option.filter_eq_some_iff,Option.map_eq_some_iff,decide_eq_true_eq] at read
  obtain ⟨⟨digits,reads,rfl⟩,below⟩ := read
  obtain ⟨small,same⟩ := (Webhooks.mapM_alphabet digit_exact part digits).mp reads
  rw [List.map_id] at same
  subst same
  simp only [List.isEmpty_map,List.isEmpty_iff,List.length_map,Bool.or_eq_true,decide_eq_true_eq,not_or] at size
  have one : ∀ x : Fin 10,decimal x = [Nat.digitChar x] := by decide
  have two : ∀ x y : Fin 10,x ≠ 0 → decimal (10*x.val+y.val) = [Nat.digitChar x,Nat.digitChar y] := by decide
  have three : ∀ x y z : Fin 10,x ≠ 0 →
      decimal (10*(10*x.val+y.val)+z.val) = [Nat.digitChar x,Nat.digitChar y,Nat.digitChar z] := by decide
  have zero : ∀ x : Fin 10,Nat.digitChar x ≠ '0' → x ≠ 0 := by decide
  refine ⟨by omega,?_⟩
  match digits,size,small,plain with
  | [x],_,small,_ =>
    simpa using (one ⟨x,by simpa using small⟩).symm
  | [x,y],_,small,plain =>
    obtain ⟨first,second⟩ : x < 10 ∧ y < 10 := by simpa using small
    simpa using (two ⟨x,first⟩ ⟨y,second⟩ (zero ⟨x,first⟩ (by simpa using plain))).symm
  | [x,y,z],_,small,plain =>
    obtain ⟨first,second,third⟩ : x < 10 ∧ y < 10 ∧ z < 10 := by simpa using small
    simpa using (three ⟨x,first⟩ ⟨y,second⟩ ⟨z,third⟩ (zero ⟨x,first⟩ (by simpa using plain))).symm
  | _ :: _ :: _ :: _ :: _,size,_,_ => simp at size

theorem octets_parts (octets : Octets) : octets.text.splitOn '.' = octets.list.map decimal := by
  refine List.splitOn_intercalate '.' (fun part member => ?_) (by simp [Octets.list])
  obtain ⟨n,inside,rfl⟩ := List.mem_map.mp member
  simp only [Octets.list,List.mem_cons,List.not_mem_nil,or_false] at inside
  rcases inside with rfl | rfl | rfl | rfl
  · exact (octet_decimal octets.a).2.1
  · exact (octet_decimal octets.b).2.1
  · exact (octet_decimal octets.c).2.1
  · exact (octet_decimal octets.d).2.1
theorem ipv4Octets_text (octets : Octets) : ipv4Octets octets.text = some octets.list := by
  unfold ipv4Octets
  rw [octets_parts]
  simp [Octets.list,octet_decimal]
theorem isIPv4_exact (addr : List Char) : isIPv4 addr = true ↔ ∃ octets,Text4 addr octets := by
  constructor
  · intro accepted
    obtain ⟨read,plain⟩ := Bool.and_eq_true_iff.mp accepted
    obtain ⟨values,read⟩ := Option.isSome_iff_exists.mp read
    unfold ipv4Octets at read
    dsimp only at read
    split at read
    · rename_i four
      obtain ⟨p,q,r,t,parts⟩ : ∃ p q r t,addr.splitOn '.' = [p,q,r,t] := List.length_eq_four.mp four
      rw [parts] at read plain
      obtain ⟨first,second,third,fourth⟩ : (p.length = 1 ∨ p.head? ≠ some '0') ∧ (q.length = 1 ∨ q.head? ≠ some '0') ∧
        (r.length = 1 ∨ r.head? ≠ some '0') ∧ (t.length = 1 ∨ t.head? ≠ some '0') := by simpa using plain
      simp only [List.mapM_cons,List.mapM_nil,Option.bind_eq_bind,Option.bind_eq_some_iff,Option.pure_def,Option.some.injEq] at read
      obtain ⟨a,readA,_,⟨b,readB,_,⟨c,readC,_,⟨d,readD,_,rfl,rfl⟩,rfl⟩,rfl⟩,-⟩ := read
      obtain ⟨smallA,rfl⟩ := octet_printed readA first
      obtain ⟨smallB,rfl⟩ := octet_printed readB second
      obtain ⟨smallC,rfl⟩ := octet_printed readC third
      obtain ⟨smallD,rfl⟩ := octet_printed readD fourth
      refine ⟨⟨⟨a,smallA⟩,⟨b,smallB⟩,⟨c,smallC⟩,⟨d,smallD⟩⟩,?_⟩
      have whole : ['.'].intercalate (addr.splitOn '.') = addr := List.intercalate_splitOn '.'
      rw [Text4,← whole,parts]
      rfl
    · cases read
  · rintro ⟨octets,rfl⟩
    unfold isIPv4
    rw [ipv4Octets_text,octets_parts]
    simp [Octets.list,octet_decimal]

-- Texts with ':' in them.
theorem joined_cons {part : List Char} {parts : List (List Char)} (some' : parts ≠ []) :
    joined (part :: parts) = part ++ ':' :: joined parts := by
  rw [joined,List.intercalate_cons_of_ne_nil some',List.append_assoc]
  rfl
theorem joined_append (front : List (List Char)) {back : List (List Char)} (some' : back ≠ []) :
    joined (front ++ back) = front.flatMap (· ++ [':']) ++ joined back := by
  induction front with
  | nil => rfl
  | cons part rest ih =>
    rw [List.cons_append,joined_cons (by simp [some']),ih]
    simp
theorem joined_map (f : Char → Char) (same : f ':' = ':') (parts : List (List Char)) : (joined parts).map f = joined (parts.map (·.map f)) := by
  induction parts with
  | nil => rfl
  | cons part rest ih =>
    by_cases none : rest = []
    · subst none
      simp [joined]
    · rw [joined_cons none,List.map_cons,joined_cons (by simpa using none),← ih]
      simp [same]
theorem mem_joined {c : Char} {parts : List (List Char)} (member : c ∈ joined parts) : c = ':' ∨ ∃ part ∈ parts,c ∈ part := by
  induction parts with
  | nil => cases member
  | cons part rest ih =>
    by_cases none : rest = []
    · subst none
      exact .inr ⟨part,List.mem_cons_self,by simpa [joined] using member⟩
    · rw [joined_cons none,List.mem_append,List.mem_cons] at member
      rcases member with here | rfl | there
      · exact .inr ⟨part,List.mem_cons_self,here⟩
      · exact .inl rfl
      · exact (ih there).imp id fun ⟨other,inside,within⟩ => ⟨other,.tail _ inside,within⟩

-- split at '::' gives back what was put together.
def Tidy (parts : List (List Char)) : Prop := ∀ part ∈ parts,part ≠ [] ∧ ':' ∉ part
theorem halves_cons (c : Char) (rest : List Char) : halves (c :: rest) =
    if c = ':' ∧ rest.head? = some ':' then [] :: halves rest.tail
    else match halves rest with
      | first :: more => (c :: first) :: more
      | [] => [[c]] := by
  rw [halves.eq_def]
  split
  · rename_i later same
    cases same
    rw [if_pos ⟨rfl,rfl⟩]
    rfl
  · rename_i d later apart same
    cases same
    have other : ¬(c = ':' ∧ rest.head? = some ':') := by
      rintro ⟨rfl,colon⟩
      obtain ⟨tail,split⟩ := List.head?_eq_some_iff.mp colon
      exact apart tail rfl split
    exact (if_neg other).symm
  · rename_i same
    cases same
theorem halves_some (text : List Char) : halves text ≠ [] := by
  cases text with
  | nil => exact List.cons_ne_nil _ _
  | cons c rest =>
    rw [halves_cons]
    split
    · exact List.cons_ne_nil _ _
    · split
      · exact List.cons_ne_nil _ _
      · exact List.cons_ne_nil _ _
theorem halves_char {c : Char} {rest : List Char} (plain : c ≠ ':' ∨ rest.head? ≠ some ':') :
    halves (c :: rest) = (halves rest).modifyHead (c :: ·) := by
  obtain ⟨first,more,same⟩ := List.exists_cons_of_ne_nil (halves_some rest)
  rw [halves_cons,if_neg (not_and_or.mpr plain),same]
  rfl
theorem halves_word {word : List Char} (clean : ':' ∉ word) (rest : List Char) :
    halves (word ++ rest) = (halves rest).modifyHead (word ++ ·) := by
  induction word with
  | nil => exact (congrFun List.modifyHead_id (halves rest)).symm
  | cons c later ih =>
    obtain ⟨other,clean⟩ : ':' ≠ c ∧ ':' ∉ later := by simpa using clean
    rw [List.cons_append,halves_char (.inl other.symm),ih clean,List.modifyHead_modifyHead]
    rfl
theorem joined_head {part : List Char} {parts : List (List Char)} (tidy : Tidy (part :: parts)) (rest : List Char) :
    (joined (part :: parts) ++ rest).head? ≠ some ':' := by
  obtain ⟨some',clean⟩ := tidy part List.mem_cons_self
  obtain ⟨c,later,rfl⟩ := List.exists_cons_of_ne_nil some'
  have other : ':' ≠ c := fun same => clean (same ▸ List.mem_cons_self)
  by_cases none : parts = []
  · subst none
    simpa [joined] using other.symm
  · rw [joined_cons none]
    simpa using other.symm
theorem halves_joined {parts : List (List Char)} (tidy : Tidy parts) (rest : List Char) :
    halves (joined parts ++ ':' :: ':' :: rest) = joined parts :: halves rest := by
  induction parts with
  | nil => rfl
  | cons part later ih =>
    have clean := (tidy part List.mem_cons_self).2
    have others : Tidy later := fun other member => tidy other (.tail _ member)
    cases later with
    | nil =>
      have one : joined [part] = part := List.intercalate_singleton
      rw [one,halves_word clean,halves_cons,if_pos ⟨rfl,rfl⟩]
      simp
    | cons next more =>
      rw [joined_cons (by simp),List.append_assoc,halves_word clean,List.cons_append,halves_char (.inr (joined_head others _)),ih others]
      simp
theorem halves_single {parts : List (List Char)} (tidy : Tidy parts) : halves (joined parts) = [joined parts] := by
  induction parts with
  | nil => rfl
  | cons part later ih =>
    have clean := (tidy part List.mem_cons_self).2
    have others : Tidy later := fun other member => tidy other (.tail _ member)
    cases later with
    | nil =>
      have one : joined [part] = part ++ [] := by simp [joined]
      rw [one,halves_word clean]
      simp [show halves [] = [[]] from rfl]
    | cons next more =>
      have first := joined_head others []
      rw [List.append_nil] at first
      rw [joined_cons (by simp),halves_word clean,halves_char (.inr first),ih others]
      simp
theorem halves_join (text : List Char) : List.intercalate [':',':'] (halves text) = text := by
  induction text using halves.induct with
  | case1 rest ih =>
    rw [halves,List.intercalate_cons_of_ne_nil (halves_some rest),ih]
    rfl
  | case2 c rest step first more same ih =>
    rw [halves,same]
    · rw [same] at ih
      cases more with
      | nil => simpa using congrArg (c :: ·) ih
      | cons next others => simpa using congrArg (c :: ·) ih
    · exact step
  | case3 c rest step same ih => exact absurd same (halves_some rest)
  | case4 => rfl

-- Groups read back.
theorem lowerHex_lower (c : Char) : lowerHex c.toLower = hexDigit c ∧ (lowerHex c).isSome = ((hexDigit c).isSome && c.toLower == c) := by
  refine Webhooks.ascii_or (fun c => lowerHex c.toLower = hexDigit c ∧ (lowerHex c).isSome = ((hexDigit c).isSome && c.toLower == c))
    (by decide) (fun c large => ?_) c
  have none : hexDigit c = none := by
    simp only [hexDigit,Webhooks.beyond large '9' (by decide),Webhooks.beyond large 'f' (by decide),Webhooks.beyond large 'F' (by decide),
      and_false,if_false]
  simp [Webhooks.lower_beyond large,lowerHex,none]
theorem hextet_lower (part : List Char) : hextet (part.map Char.toLower) = hexValue part := by
  have digits : (part.map Char.toLower).mapM lowerHex = part.mapM hexDigit := by
    induction part with
    | nil => rfl
    | cons c rest ih => rw [List.map_cons,List.mapM_cons,List.mapM_cons,(lowerHex_lower c).1,ih]
  simp only [hextet,hexValue,List.isEmpty_map,List.length_map,digits]
theorem hexDigits_some {part : List Char} {digits : List Nat} (read : part.mapM hexDigit = some digits) :
    ∀ c ∈ part,(hexDigit c).isSome = true := by
  induction part generalizing digits with
  | nil => simp
  | cons c rest ih =>
    simp only [List.mapM_cons,Option.bind_eq_bind,Option.bind_eq_some_iff,Option.pure_def,Option.some.injEq] at read
    obtain ⟨n,here,_,later,rfl⟩ := read
    intro d member
    rcases List.mem_cons.mp member with rfl | inside
    · simp [here]
    · exact ih later d inside
theorem group_shape {part : List Char} : (∃ n,Group part n) ↔ part ≠ [] ∧ part.length ≤ 4 ∧ ∀ c ∈ part,(hexDigit c).isSome = true := by
  have reads : (∀ c ∈ part,(hexDigit c).isSome = true) → ∃ digits,part.mapM hexDigit = some digits := by
    induction part with
    | nil => exact fun _ => ⟨[],rfl⟩
    | cons c rest ih =>
      intro each
      obtain ⟨n,here⟩ := Option.isSome_iff_exists.mp (each c List.mem_cons_self)
      obtain ⟨digits,later⟩ := ih fun d member => each d (.tail _ member)
      exact ⟨n :: digits,by simp [here,later]⟩
  unfold Group hexValue
  constructor
  · rintro ⟨n,read⟩
    split at read
    · cases read
    · rename_i size
      obtain ⟨digits,read,-⟩ := Option.map_eq_some_iff.mp read
      simp only [List.isEmpty_iff,Bool.or_eq_true,decide_eq_true_eq,not_or] at size
      exact ⟨size.1,by omega,hexDigits_some read⟩
  · rintro ⟨some',short,each⟩
    obtain ⟨digits,read⟩ := reads each
    exact ⟨_,by rw [if_neg (by simp [some',short]),read]; rfl⟩
theorem hexDigit_apart {c : Char} (digit : (hexDigit c).isSome = true) : c ≠ ':' ∧ c ≠ '.' ∧ c ≠ '%' := by
  refine ⟨?_,?_,?_⟩
  · rintro rfl
    cases digit
  · rintro rfl
    cases digit
  · rintro rfl
    cases digit
theorem group_tidy {parts : List (List Char)} {values : List Nat} (groups : List.Forall₂ Group parts values) :
    ∀ part ∈ parts,part ≠ [] ∧ part.length ≤ 4 ∧ ∀ c ∈ part,(hexDigit c).isSome = true := by
  induction groups with
  | nil => simp
  | cons first _ ih =>
    intro part member
    rcases List.mem_cons.mp member with rfl | later
    · exact group_shape.mp ⟨_,first⟩
    · exact ih part later
theorem group_small {part : List Char} {n : Nat} (group : Group part n) : n < 65536 := by
  unfold Group hexValue at group
  split at group
  · cases group
  rename_i size
  obtain ⟨digits,read,rfl⟩ := Option.map_eq_some_iff.mp group
  obtain ⟨small,same⟩ := (Webhooks.mapM_alphabet Webhooks.hexDigit_exact part digits).mp read
  have long : digits.length = part.length := by simpa using (congrArg List.length same).symm
  have short : digits.length ≤ 4 := by
    simp only [Bool.or_eq_true,decide_eq_true_eq,not_or] at size
    omega
  match digits,short,small with
  | [],_,_ => simp
  | [a],_,small =>
    have first : a < 16 := by simpa using small
    simp only [List.foldl_cons,List.foldl_nil]
    omega
  | [a,b],_,small =>
    obtain ⟨first,second⟩ : a < 16 ∧ b < 16 := by simpa using small
    simp only [List.foldl_cons,List.foldl_nil]
    omega
  | [a,b,c],_,small =>
    obtain ⟨first,second,third⟩ : a < 16 ∧ b < 16 ∧ c < 16 := by simpa using small
    simp only [List.foldl_cons,List.foldl_nil]
    omega
  | [a,b,c,d],_,small =>
    obtain ⟨first,second,third,fourth⟩ : a < 16 ∧ b < 16 ∧ c < 16 ∧ d < 16 := by simpa using small
    simp only [List.foldl_cons,List.foldl_nil]
    omega
  | _ :: _ :: _ :: _ :: _ :: _,short,_ =>
    have long : _ + 5 ≤ 4 := short
    omega
theorem groups_small {parts : List (List Char)} {values : List Nat} (groups : List.Forall₂ Group parts values) : ∀ n ∈ values,n < 65536 := by
  induction groups with
  | nil => simp
  | cons first _ ih =>
    intro n member
    rcases List.mem_cons.mp member with rfl | later
    · exact group_small first
    · exact ih n later
theorem lower_tidy {parts : List (List Char)} {values : List Nat} (groups : List.Forall₂ Group parts values) :
    Tidy (parts.map (·.map Char.toLower)) := by
  intro part member
  obtain ⟨before,inside,rfl⟩ := List.mem_map.mp member
  obtain ⟨some',-,digits⟩ := group_tidy groups before inside
  refine ⟨by simpa using some',fun colon => ?_⟩
  obtain ⟨c,here,same⟩ := List.mem_map.mp colon
  have digit := digits c here
  rw [← (lowerHex_lower c).1,same] at digit
  cases digit
theorem parseGroups_lower {parts : List (List Char)} {values : List Nat} (groups : List.Forall₂ Group parts values) :
    parseGroups (joined (parts.map (·.map Char.toLower))) = some values := by
  have reads : (parts.map (·.map Char.toLower)).mapM hextet = some values := by
    induction groups with
    | nil => rfl
    | cons first _ ih =>
      have here : hextet (List.map Char.toLower _) = some _ := (hextet_lower _).trans first
      rw [List.map_cons,List.mapM_cons,here,ih]
      rfl
  cases parts with
  | nil =>
    cases groups
    rfl
  | cons part rest =>
    have some' : joined ((part :: rest).map (·.map Char.toLower)) ≠ [] := by
      intro nothing
      have head := joined_head (lower_tidy groups) [':']
      rw [List.map_cons] at nothing
      rw [nothing] at head
      exact head rfl
    have split : (joined ((part :: rest).map (·.map Char.toLower))).splitOn ':' = (part :: rest).map (·.map Char.toLower) :=
      List.splitOn_intercalate ':' (fun other member => (lower_tidy groups other member).2) (by simp)
    rw [parseGroups,if_neg (by simpa using some'),split,reads]
theorem hexShown_reads (n : Nat) : ∃ digits,(hexShown n).mapM hexDigit = some digits ∧ digits.foldl (fun n d => 16*n+d) 0 = n ∧
    (hexShown n).map Char.toLower = hexShown n := by
  have digit : ∀ d : Fin 16,hexDigit (Nat.digitChar d) = some d.val ∧ (Nat.digitChar d).toLower = Nat.digitChar d := by decide
  unfold hexShown
  induction n using Nat.strongRecOn with
  | ind n ih =>
    by_cases small : n < 16
    · obtain ⟨read,lower⟩ := digit ⟨n,small⟩
      rw [Nat.toDigits_of_lt_base small]
      exact ⟨[n],by simp [read],by simp,by simp [lower]⟩
    · obtain ⟨digits,reads,value,lower⟩ := ih (n/16) (by omega)
      obtain ⟨read,low⟩ := digit ⟨n%16,Nat.mod_lt _ (by omega)⟩
      rw [Nat.toDigits_of_base_le (by omega) (by omega)]
      refine ⟨digits ++ [n%16],?_,?_,?_⟩
      · rw [List.mapM_append,reads]
        simp [read]
      · rw [List.foldl_append,value]
        simp only [List.foldl_cons,List.foldl_nil]
        omega
      · rw [List.map_append,lower]
        simp [low]
theorem hexShown_group {n : Nat} (small : n < 65536) : Group (hexShown n) n := by
  obtain ⟨digits,reads,value,-⟩ := hexShown_reads n
  have short : (hexShown n).length ≤ 4 := (Nat.length_toDigits_le_iff (by omega) (by omega)).mpr (by omega)
  have some' : hexShown n ≠ [] := Nat.toDigits_ne_nil
  rw [Group,hexValue,if_neg (by simp [some',short]),reads,Option.map_some,value]

-- Octets at the end of a text are found and written as two groups.
theorem mem_split (sep : Char) {c : Char} {text : List Char} (member : c ∈ text) (other : c ≠ sep) : ∃ part ∈ text.splitOn sep,c ∈ part := by
  induction text with
  | nil => cases member
  | cons first rest ih =>
    rw [List.splitOn_cons_eq_if_modifyHead]
    obtain ⟨part,more,split⟩ := List.exists_cons_of_ne_nil (List.splitOn_ne_nil sep rest)
    rcases List.mem_cons.mp member with rfl | inside
    · rw [if_neg (by simpa using other),split]
      exact ⟨c :: part,List.mem_cons_self,List.mem_cons_self⟩
    · obtain ⟨found,there,within⟩ := ih inside
      split
      · exact ⟨found,.tail _ there,within⟩
      · rw [split] at there ⊢
        rcases List.mem_cons.mp there with rfl | later
        · exact ⟨first :: found,List.mem_cons_self,.tail _ within⟩
        · exact ⟨found,.tail _ later,within⟩
theorem colon_unquad {text : List Char} (colon : ':' ∈ text) : dottedQuad text = false := by
  obtain ⟨part,there,within⟩ := mem_split '.' colon (by decide)
  have undigit : (digit ':').isSome = false := rfl
  have part_fails : (!part.isEmpty && decide (part.length ≤ 3) && part.all fun c => (digit c).isSome) = false := by
    rw [Bool.and_eq_false_iff]
    exact .inr (List.all_eq_false.mpr ⟨_,within,by simp [undigit]⟩)
  rw [dottedQuad,Bool.and_eq_false_iff]
  exact .inr (List.all_eq_false.mpr ⟨part,there,by simp [part_fails]⟩)
theorem plain_unquad {text : List Char} (plain : '.' ∉ text) : dottedQuad text = false := by
  rw [dottedQuad,List.splitOn_eq_singleton plain]
  rfl
theorem octets_quad (octets : Octets) : dottedQuad octets.text = true := by
  have each : ∀ n : Fin 256,(!(decimal n).isEmpty && decide ((decimal n).length ≤ 3) && (decimal n).all fun c => (digit c).isSome) = true :=
    fun n => (decimals n).2.1
  rw [dottedQuad,octets_parts]
  simp [Octets.list,each]
theorem octets_plain (octets : Octets) :
    (':' ∉ octets.text ∧ '%' ∉ octets.text) ∧ octets.text ≠ [] ∧ octets.text.map Char.toLower = octets.text := by
  have lower : ∀ n : Fin 256,(decimal n).map Char.toLower = decimal n ∧ '%' ∉ decimal n := fun n => (decimals n).2.2
  have colon : ∀ n : Fin 256,':' ∉ decimal n := fun n => (octet_decimal n).2.2.1
  have whole : octets.text = decimal octets.a ++ '.' :: (decimal octets.b ++ '.' :: (decimal octets.c ++ '.' :: decimal octets.d)) := by
    simp [Octets.text,Octets.list]
  have dot : Char.toLower '.' = '.' := rfl
  rw [whole]
  exact ⟨⟨by simp [colon],by simp [lower]⟩,by simp,by simp [lower,dot]⟩
theorem find_quad {front quad : List Char} (closed : front = [] ∨ front.getLast? = some ':') (dotted : dottedQuad quad = true) :
    (front ++ quad).tails.find? dottedQuad = some quad := by
  have first : ∀ text : List Char,text.tails = text :: text.tails.tail := by
    intro text
    cases text with
    | nil => rfl
    | cons c rest => rfl
  induction front with
  | nil =>
    rw [List.nil_append,first,List.find?_cons_of_pos dotted]
  | cons c rest ih =>
    have colon : ':' ∈ c :: rest := List.mem_of_getLast? (closed.resolve_left (by simp))
    rw [List.cons_append,List.tails_cons,List.find?_cons_of_neg]
    · refine ih ?_
      cases rest with
      | nil => exact .inl rfl
      | cons next later => exact .inr (by simpa using closed)
    · rw [← List.cons_append,colon_unquad (List.mem_append_left _ colon)]
      exact Bool.false_ne_true
theorem find_plain {text : List Char} (plain : '.' ∉ text) : text.tails.find? dottedQuad = none := by
  refine List.find?_eq_none.mpr fun tail member => ?_
  have sub : '.' ∉ tail := fun inside => plain (((List.mem_tails _ _).mp member).subset inside)
  simp [plain_unquad sub]

-- The text that is left once the octets are groups.
def rewritten (text : List Char) : Option (List Char) :=
  match text.tails.find? dottedQuad with
  | none => some text
  | some tail => match ipv4Octets tail with
    | some [a,b,c,d] => some (text.take (text.length-tail.length) ++ hexShown (a <<< 8 ||| b) ++ ':' :: hexShown (c <<< 8 ||| d))
    | _ => none
def readGroups (text : List Char) : Option (List Nat) :=
  match halves text with
  | [text] => (parseGroups text).filter fun groups => groups.length == 8
  | [head,tail] => do
    let head ← parseGroups head
    let tail ← parseGroups tail
    if head.length+tail.length ≤ 8 then some (head ++ List.replicate (8-head.length-tail.length) 0 ++ tail) else none
  | _ => none
theorem expandIpv6_steps (addr : List Char) :
    expandIpv6 addr = (rewritten ((addr.map Char.toLower).takeWhile (· != '%'))).bind readGroups := rfl

theorem pair_small (a b : Fin 256) : a.val*256+b.val < 65536 := by omega
theorem octet_pair (a b : Fin 256) : a.val <<< 8 ||| b.val = a.val*256+b.val := by
  rw [← Nat.shiftLeft_add_eq_or_of_lt (show b.val < 2^8 by omega),Nat.shiftLeft_eq]
theorem rewritten_octets {front : List Char} (closed : front = [] ∨ front.getLast? = some ':') (octets : Octets) :
    rewritten (front ++ octets.text) =
      some (front ++ joined [hexShown (octets.a*256+octets.b),hexShown (octets.c*256+octets.d)]) := by
  rw [rewritten,find_quad closed (octets_quad octets)]
  dsimp only
  rw [ipv4Octets_text]
  simp only [Octets.list,octet_pair,List.length_append,Nat.add_sub_cancel,List.take_left,List.append_assoc]
  simp [joined]
theorem rewritten_plain {text : List Char} (plain : '.' ∉ text) : rewritten text = some text := by
  rw [rewritten,find_plain plain]

-- Lower case, groups only.
def Lowered (text : List Char) (values : List Nat) : Prop :=
  ∃ parts,List.Forall₂ Group parts values ∧ text = joined (parts.map (·.map Char.toLower))
theorem readGroups_whole {text : List Char} {values : List Nat} (lowered : Lowered text values) (eight : values.length = 8) :
    readGroups text = some values := by
  obtain ⟨parts,groups,rfl⟩ := lowered
  rw [readGroups,halves_single (lower_tidy groups)]
  dsimp only
  rw [parseGroups_lower groups]
  simp [eight]
theorem readGroups_short {head tail : List Char} {front back : List Nat} (first : Lowered head front) (last : Lowered tail back)
    (few : front.length+back.length ≤ 7) :
    readGroups (head ++ ':' :: ':' :: tail) = some (front ++ List.replicate (8-front.length-back.length) 0 ++ back) := by
  obtain ⟨parts,groups,rfl⟩ := first
  obtain ⟨others,more,rfl⟩ := last
  rw [readGroups,halves_joined (lower_tidy groups),halves_single (lower_tidy more)]
  dsimp only
  rw [parseGroups_lower groups,parseGroups_lower more]
  simp only [Option.bind_eq_bind,Option.bind_some]
  rw [if_pos (by omega)]

def Undotted (text : List Char) : Prop := '.' ∉ text ∧ '%' ∉ text
theorem lower_undotted {parts : List (List Char)} {values : List Nat} (groups : List.Forall₂ Group parts values) :
    Undotted (joined (parts.map (·.map Char.toLower))) := by
  have each : ∀ c ∈ joined (parts.map (·.map Char.toLower)),c = ':' ∨ (hexDigit c).isSome = true := by
    intro c member
    rcases mem_joined member with colon | ⟨part,inside,within⟩
    · exact .inl colon
    · obtain ⟨before,there,rfl⟩ := List.mem_map.mp inside
      obtain ⟨d,here,rfl⟩ := List.mem_map.mp within
      have digit := (group_tidy groups before there).2.2 d here
      rw [← (lowerHex_lower d).1] at digit
      obtain ⟨n,read⟩ := Option.isSome_iff_exists.mp digit
      exact .inr (by rw [(Option.filter_eq_some_iff.mp read).1]; rfl)
  refine ⟨fun dot => ?_,fun percent => ?_⟩
  · rcases each _ dot with colon | digit
    · cases colon
    · cases digit
  · rcases each _ percent with colon | digit
    · cases colon
    · cases digit
theorem closed_append {front : List Char} (closed : front = [] ∨ front.getLast? = some ':') (parts : List (List Char)) :
    front ++ parts.flatMap (· ++ [':']) = [] ∨ (front ++ parts.flatMap (· ++ [':'])).getLast? = some ':' := by
  induction parts using List.reverseRecOn with
  | nil => simpa using closed
  | append_singleton rest part _ => exact .inr (by simp [List.flatMap_append])
theorem forall₂_snoc {parts : List (List Char)} {values : List Nat} (groups : List.Forall₂ Group parts values) {a b : Nat} (first : a < 65536)
    (second : b < 65536) : List.Forall₂ Group (parts ++ [hexShown a,hexShown b]) (values ++ [a,b]) :=
  List.rel_append groups (.cons (hexShown_group first) (.cons (hexShown_group second) .nil))
theorem ending_rewritten {text : List Char} (front : List Char) {values : List Nat} (ending : Ending Group text values) (plain : '.' ∉ front)
    (closed : front = [] ∨ front.getLast? = some ':') :
    ∃ low,rewritten (front ++ text.map Char.toLower) = some (front ++ low) ∧ Lowered low values := by
  have colon : Char.toLower ':' = ':' := rfl
  rcases ending with ⟨parts,groups,rfl⟩ | ⟨parts,values,octets,groups,rfl,rfl⟩
  · refine ⟨_,rewritten_plain ?_,parts,groups,joined_map _ colon parts⟩
    rw [joined_map _ colon,List.mem_append]
    exact fun dot => dot.elim plain (lower_undotted groups).1
  · have lower : ∀ n : Nat,n < 65536 → (hexShown n).map Char.toLower = hexShown n := fun n _ => (hexShown_reads n).choose_spec.2.2
    have first := pair_small octets.a octets.b
    have second := pair_small octets.c octets.d
    have more : List.Forall₂ Group (parts ++ [hexShown (octets.a*256+octets.b),hexShown (octets.c*256+octets.d)])
        (values ++ octets.groups) := forall₂_snoc groups first second
    refine ⟨_,?_,_,more,rfl⟩
    rw [joined_map _ colon,List.map_append,List.map_append]
    simp only [List.map_cons,List.map_nil,(octets_plain octets).2.2,lower _ first,lower _ second]
    rw [joined_append _ (by simp),joined_append _ (by simp),← List.append_assoc,← List.append_assoc]
    have one : joined [octets.text] = octets.text := by simp [joined]
    rw [one]
    exact rewritten_octets (closed_append closed _) octets
theorem groups_plain {parts : List (List Char)} {values : List Nat} (groups : List.Forall₂ Group parts values) : '%' ∉ joined parts := by
  intro percent
  rcases mem_joined percent with colon | ⟨part,inside,within⟩
  · cases colon
  · exact (hexDigit_apart ((group_tidy groups part inside).2.2 _ within)).2.2 rfl
theorem ending_plain {text : List Char} {values : List Nat} (ending : Ending Group text values) : '%' ∉ text := by
  rcases ending with ⟨parts,groups,rfl⟩ | ⟨parts,front,octets,groups,rfl,-⟩
  · exact groups_plain groups
  · intro percent
    rcases mem_joined percent with colon | ⟨part,inside,within⟩
    · cases colon
    · rcases List.mem_append.mp inside with before | last
      · exact (hexDigit_apart ((group_tidy groups part before).2.2 _ within)).2.2 rfl
      · obtain rfl := List.mem_singleton.mp last
        exact (octets_plain octets).1.2 within
theorem bare_plain {text : List Char} {values : List Nat} (bare : Bare Group (Ending Group) text values) : '%' ∉ text := by
  rcases bare with ⟨ending,-⟩ | ⟨head,tail,front,back,rfl,⟨parts,groups,rfl⟩,last,-⟩
  · exact ending_plain ending
  · simpa using ⟨groups_plain groups,ending_plain last⟩
theorem zone_cut {bare zone : List Char} (plain : '%' ∉ bare) (zoned : Zone zone) :
    (bare ++ zone).takeWhile (· != '%') = bare ∧ (bare ++ zone).dropWhile (· != '%') = zone := by
  have each : ∀ c ∈ bare,(c != '%') = true := fun c member => bne_iff_ne.mpr fun same => plain (same ▸ member)
  rw [List.takeWhile_append_of_pos each,List.dropWhile_append_of_pos each]
  rcases zoned with rfl | ⟨c,name,rfl,-⟩
  · simp
  · simp
theorem expandIpv6_exact {addr : List Char} {values : List Nat} (text : Text6 addr values) : expandIpv6 addr = some values := by
  obtain ⟨bare,zone,rfl,zoned,form⟩ := text
  have percent : ∀ c : Char,(c.toLower != '%') = (c != '%') := by
    refine Webhooks.ascii_or (fun c => (c.toLower != '%') = (c != '%')) (by decide) fun c large => ?_
    rw [Webhooks.lower_beyond large]
  have cut : ((bare ++ zone).map Char.toLower).takeWhile (· != '%') = bare.map Char.toLower := by
    rw [List.takeWhile_map]
    refine congrArg (List.map Char.toLower) (Eq.trans ?_ (zone_cut (bare_plain form) zoned).1)
    exact congrArg (fun p => (bare ++ zone).takeWhile p) (funext percent)
  rw [expandIpv6_steps,cut]
  rcases form with ⟨ending,eight⟩ | ⟨head,tail,front,back,rfl,first,last,few,rfl⟩
  · obtain ⟨low,same,lowered⟩ := ending_rewritten [] ending (by simp) (.inl rfl)
    rw [List.nil_append] at same
    rw [same]
    exact readGroups_whole lowered eight
  · obtain ⟨parts,groups,rfl⟩ := first
    have colon : Char.toLower ':' = ':' := rfl
    have plain : '.' ∉ joined (parts.map (·.map Char.toLower)) ++ [':',':'] := by
      simp [(lower_undotted groups).1]
    obtain ⟨low,same,lowered⟩ := ending_rewritten _ last plain (.inr (by simp))
    have whole : (joined parts ++ ':' :: ':' :: tail).map Char.toLower =
        joined (parts.map (·.map Char.toLower)) ++ [':',':'] ++ tail.map Char.toLower := by
      rw [List.map_append,joined_map _ colon]
      simp [colon]
    rw [whole,same,Option.bind_some,List.append_assoc]
    exact readGroups_short ⟨parts,groups,rfl⟩ lowered few

-- Eight groups of sixteen bits.
theorem ending_small {text : List Char} {values : List Nat} (ending : Ending Group text values) : ∀ n ∈ values,n < 65536 := by
  rcases ending with ⟨parts,groups,rfl⟩ | ⟨parts,front,octets,groups,rfl,rfl⟩
  · exact groups_small groups
  · intro n member
    rcases List.mem_append.mp member with before | last
    · exact groups_small groups n before
    · simp only [Octets.groups,List.mem_cons,List.not_mem_nil,or_false] at last
      rcases last with rfl | rfl
      · exact pair_small octets.a octets.b
      · exact pair_small octets.c octets.d
theorem text6_groups {addr : List Char} {values : List Nat} (text : Text6 addr values) : values.length = 8 ∧ ∀ n ∈ values,n < 65536 := by
  obtain ⟨bare,zone,rfl,-,form⟩ := text
  rcases form with ⟨ending,eight⟩ | ⟨head,tail,front,back,rfl,⟨parts,groups,rfl⟩,last,few,rfl⟩
  · exact ⟨eight,ending_small ending⟩
  · constructor
    · simp only [List.length_append,List.length_replicate]
      omega
    · intro n member
      simp only [List.mem_append,List.mem_replicate] at member
      rcases member with (first | ⟨-,rfl⟩) | after
      · exact groups_small groups n first
      · omega
      · exact ending_small last n after

-- isIP accepts these texts and no other.
def isGroup (part : List Char) : Bool := !part.isEmpty && part.length ≤ 4 && part.all fun c => (hexDigit c).isSome
theorem isGroup_exact (part : List Char) : isGroup part = true ↔ ∃ n,Group part n := by
  rw [group_shape]
  simp [isGroup,and_assoc]
theorem groups_of {parts : List (List Char)} (each : parts.all isGroup = true) :
    ∃ values,List.Forall₂ Group parts values ∧ values.length = parts.length := by
  induction parts with
  | nil => exact ⟨[],.nil,rfl⟩
  | cons part rest ih =>
    obtain ⟨here,later⟩ : isGroup part = true ∧ rest.all isGroup = true := by simpa using each
    obtain ⟨n,group⟩ := (isGroup_exact part).mp here
    obtain ⟨values,groups,size⟩ := ih later
    exact ⟨n :: values,.cons group groups,by simp [size]⟩
theorem groups_all {parts : List (List Char)} {values : List Nat} (groups : List.Forall₂ Group parts values) : parts.all isGroup = true := by
  refine List.all_eq_true.mpr fun part member => (isGroup_exact part).mpr (group_shape.mpr ?_)
  exact group_tidy groups part member
theorem groupCount_steps (ends : Bool) (text : List Char) : groupCount ends text =
    if text.isEmpty then some 0
    else if (text.splitOn ':').all isGroup then some (text.splitOn ':').length
    else if ends && (text.splitOn ':').dropLast.all isGroup && (text.splitOn ':').getLast?.any isIPv4 then some ((text.splitOn ':').length+1)
    else none := rfl
theorem split_whole (text : List Char) : joined (text.splitOn ':') = text := List.intercalate_splitOn ':'
theorem groupCount_read {ends : Bool} {text : List Char} {size : Nat} (counted : groupCount ends text = some size) :
    ∃ values,(Groups Group text values ∨ (ends = true ∧ Ending Group text values)) ∧ values.length = size := by
  rw [groupCount_steps] at counted
  split at counted
  · rename_i empty
    cases counted
    exact ⟨[],.inl ⟨[],.nil,by simpa [joined] using empty⟩,rfl⟩
  split at counted
  · rename_i all
    cases counted
    obtain ⟨values,groups,size⟩ := groups_of all
    exact ⟨values,.inl ⟨_,groups,(split_whole text).symm⟩,size⟩
  split at counted
  · rename_i last
    cases counted
    obtain ⟨⟨ends,front⟩,dotted⟩ : (ends = true ∧ (text.splitOn ':').dropLast.all isGroup = true) ∧
        (text.splitOn ':').getLast?.any isIPv4 = true := by
      rw [Bool.and_eq_true_iff,Bool.and_eq_true_iff] at last
      exact last
    obtain ⟨values,groups,size⟩ := groups_of front
    obtain ⟨quad,final,accepted⟩ := (Option.any_eq_true _ _).mp dotted
    obtain ⟨octets,rfl⟩ := (isIPv4_exact quad).mp accepted
    have parts : (text.splitOn ':').dropLast ++ [octets.text] = text.splitOn ':' := List.dropLast_append_getLast? _ final
    refine ⟨values ++ octets.groups,.inr ⟨ends,.inr ⟨_,values,octets,groups,?_,rfl⟩⟩,?_⟩
    · rw [parts,split_whole]
    · have long : (text.splitOn ':').length = (text.splitOn ':').dropLast.length+1 := by rw [← parts]; simp
      rw [List.length_append,size,long]
      rfl
  · cases counted
theorem groups_split {parts : List (List Char)} {values : List Nat} (groups : List.Forall₂ Group parts values) (some' : parts ≠ []) :
    (joined parts).splitOn ':' = parts ∧ joined parts ≠ [] := by
  have clean : ∀ part ∈ parts,':' ∉ part := fun part member colon =>
    (hexDigit_apart ((group_tidy groups part member).2.2 _ colon)).1 rfl
  refine ⟨List.splitOn_intercalate ':' clean some',fun nothing => ?_⟩
  have parts' : parts = [[]] := by
    have split := List.splitOn_intercalate ':' clean some'
    rw [← joined,nothing] at split
    exact split.symm
  exact (group_tidy groups [] (parts' ▸ List.mem_cons_self)).1 rfl
theorem groupCount_groups {ends : Bool} {text : List Char} {values : List Nat} (groups : Groups Group text values) :
    groupCount ends text = some values.length := by
  obtain ⟨parts,groups,rfl⟩ := groups
  rw [groupCount_steps,← groups.length_eq]
  by_cases none : parts = []
  · subst none
    rfl
  · obtain ⟨split,filled⟩ := groups_split groups none
    rw [split,if_neg (by simpa using filled),if_pos (groups_all groups)]
theorem groupCount_ending {text : List Char} {values : List Nat} (ending : Ending Group text values) :
    groupCount true text = some values.length := by
  rcases ending with groups | ⟨parts,front,octets,groups,rfl,rfl⟩
  · exact groupCount_groups groups
  · have clean : ∀ part ∈ parts ++ [octets.text],':' ∉ part := by
      intro part member colon
      rcases List.mem_append.mp member with before | last
      · exact (hexDigit_apart ((group_tidy groups part before).2.2 _ colon)).1 rfl
      · obtain rfl := List.mem_singleton.mp last
        exact (octets_plain octets).1.1 colon
    have split : (joined (parts ++ [octets.text])).splitOn ':' = parts ++ [octets.text] :=
      List.splitOn_intercalate ':' clean (by simp)
    have filled : joined (parts ++ [octets.text]) ≠ [] := by
      rw [joined_append _ (by simp)]
      simp [joined,(octets_plain octets).2.1]
    have dot : '.' ∈ octets.text := by simp [Octets.text,Octets.list]
    have undigit : (hexDigit '.').isSome = false := rfl
    have dotted : isGroup octets.text = false := by
      rw [isGroup,Bool.and_eq_false_iff]
      exact .inr (List.all_eq_false.mpr ⟨_,dot,by simp [undigit]⟩)
    rw [groupCount_steps,split,if_neg (by simpa using filled),if_neg (by simp [dotted]),if_pos]
    · simp [groups.length_eq,Octets.groups]
    · simp [groups_all groups,(isIPv4_exact octets.text).mpr ⟨octets,rfl⟩]
theorem ending_halves {text : List Char} {values : List Nat} (ending : Ending Group text values) :
    ∃ parts,Tidy parts ∧ text = joined parts := by
  rcases ending with ⟨parts,groups,rfl⟩ | ⟨parts,front,octets,groups,rfl,-⟩
  · exact ⟨parts,fun part member => ⟨(group_tidy groups part member).1,fun colon =>
      (hexDigit_apart ((group_tidy groups part member).2.2 _ colon)).1 rfl⟩,rfl⟩
  · refine ⟨_,fun part member => ?_,rfl⟩
    rcases List.mem_append.mp member with before | last
    · exact ⟨(group_tidy groups part before).1,fun colon => (hexDigit_apart ((group_tidy groups part before).2.2 _ colon)).1 rfl⟩
    · obtain rfl := List.mem_singleton.mp last
      exact ⟨(octets_plain octets).2.1,(octets_plain octets).1.1⟩
theorem zone_exact (zone : List Char) (start : zone = [] ∨ zone.head? = some '%') : Zone zone ↔
    (zone.isEmpty || (decide (1 < zone.length) && zone.tail.all fun c => c.isAlphanum || c == '-' || c == '.' || c == ':')) = true := by
  cases zone with
  | nil => simp [Zone]
  | cons first rest =>
    obtain rfl : first = '%' := by simpa using start
    cases rest with
    | nil => simp [Zone]
    | cons c name => simp [Zone]
theorem isIPv6_exact (addr : List Char) : isIPv6 addr = true ↔ ∃ values,Text6 addr values := by
  constructor
  · intro accepted
    obtain ⟨zoned,form⟩ := Bool.and_eq_true_iff.mp accepted
    have start : addr.dropWhile (· != '%') = [] ∨ (addr.dropWhile (· != '%')).head? = some '%' := by
      cases tail : addr.dropWhile (· != '%') with
      | nil => exact .inl rfl
      | cons c rest =>
        have stops := List.head?_dropWhile_not (· != '%') addr
        rw [tail] at stops
        exact .inr (by simpa using stops)
    have zone := (zone_exact _ start).mpr zoned
    have whole : addr = addr.takeWhile (· != '%') ++ addr.dropWhile (· != '%') := List.takeWhile_append_dropWhile.symm
    have join := halves_join (addr.takeWhile (· != '%'))
    suffices some' : ∃ values,Bare Group (Ending Group) (addr.takeWhile (· != '%')) values by
      obtain ⟨values,bare⟩ := some'
      exact ⟨values,_,_,whole,zone,bare⟩
    split at form
    · rename_i text single
      rw [single,List.intercalate_singleton] at join
      obtain ⟨values,ending,size⟩ := groupCount_read (beq_iff_eq.mp form)
      exact ⟨values,.inl ⟨join ▸ ending.elim .inl (·.2),size⟩⟩
    · rename_i head tail double
      rw [double,List.intercalate_cons_cons,List.intercalate_singleton] at join
      obtain ⟨size,counted,few⟩ := (Option.any_eq_true _ _).mp form
      obtain ⟨before,first,sum⟩ := Option.bind_eq_some_iff.mp counted
      obtain ⟨after,last,rfl⟩ := Option.map_eq_some_iff.mp sum
      obtain ⟨front,groups,rfl⟩ := groupCount_read first
      obtain ⟨back,ending,rfl⟩ := groupCount_read last
      refine ⟨_,.inr ⟨head,tail,front,back,?_,?_,ending.elim .inl (·.2),by simpa using few,rfl⟩⟩
      · rw [← join]
        simp
      · exact groups.elim id fun absurd => nomatch absurd.1
    · cases form
  · rintro ⟨values,bare,zone,rfl,zoned,form⟩
    obtain ⟨cut,rest⟩ := zone_cut (bare_plain form) zoned
    have start : zone = [] ∨ zone.head? = some '%' := by
      rcases zoned with rfl | ⟨c,name,rfl,-⟩
      · exact .inl rfl
      · exact .inr rfl
    unfold isIPv6
    simp only [cut,rest,Bool.and_eq_true]
    refine ⟨(zone_exact zone start).mp zoned,?_⟩
    rcases form with ⟨ending,eight⟩ | ⟨head,tail,front,back,rfl,first,last,few,rfl⟩
    · obtain ⟨parts,tidy,same⟩ := ending_halves ending
      have single : halves bare = [bare] := by rw [same,halves_single tidy]
      rw [single]
      simp [groupCount_ending ending,eight]
    · obtain ⟨parts,tidy,same⟩ := ending_halves last
      obtain ⟨others,clean,equal⟩ := ending_halves (.inl first)
      have double : halves (head ++ ':' :: ':' :: tail) = [head,tail] := by
        rw [equal,same,halves_joined clean,halves_single tidy]
      rw [double]
      simp only [groupCount_groups first,groupCount_ending last,Option.bind_some,Option.map_some,Option.any_some,decide_eq_true_eq]
      exact few

end Elchi.Outbound
