import Elchi.AddressTexts
namespace Elchi.Outbound

-- Blocks of addresses, by their first address and the number of leading bits.
def inBlock (width value : Nat) (block : Nat × Nat) : Bool := value/2^(width-block.2) == block.1/2^(width-block.2)
def blocks4 : List (Nat × Nat) :=
  [(0,8),(10*2^24,8),(127*2^24,8),(169*2^24+254*2^16,16),(172*2^24+16*2^16,12),(192*2^24+168*2^16,16),(100*2^24+64*2^16,10),
   (192*2^24,16),(198*2^24+18*2^16,15),(198*2^24+51*2^16,16),(203*2^24,16),(224*2^24,3)]
def blocks6 : List (Nat × Nat) := [(0xfc00*2^112,7),(0xfe80*2^112,10),(0xff00*2^112,8)]
def blocked4 (value : Nat) : Bool := blocks4.any (inBlock 32 value)
-- ::/96 and ::ffff:0:0/96 hold the addresses of IPv4.
def embedsIpv4 (value : Nat) : Bool := value/2^32 == 0 || value/2^32 == 0xffff
def blocked6 (value : Nat) : Bool := if embedsIpv4 value then blocked4 (value%2^32) else blocks6.any (inBlock 128 value)
def value6 (groups : List Nat) : Nat := groups.foldl (fun n g => 65536*n+g) 0

theorem blocked4_octets (octets : Octets) : isBlockedIpv4 octets.text = blocked4 octets.value := by
  obtain ⟨a,b,c,d⟩ := octets
  have smallA := a.isLt
  have smallB := b.isLt
  have smallC := c.isLt
  have smallD := d.isLt
  have value : (⟨a,b,c,d⟩ : Octets).value = ((a.val*256+b)*256+c)*256+d := rfl
  have by24 : (⟨a,b,c,d⟩ : Octets).value/2^24 = a := by omega
  have by16 : (⟨a,b,c,d⟩ : Octets).value/2^16 = a*256+b := by omega
  have by20 : (⟨a,b,c,d⟩ : Octets).value/2^20 = a*16+b/16 := by omega
  have by22 : (⟨a,b,c,d⟩ : Octets).value/2^22 = a*4+b/64 := by omega
  have by17 : (⟨a,b,c,d⟩ : Octets).value/2^17 = a*128+b/2 := by omega
  have by29 : (⟨a,b,c,d⟩ : Octets).value/2^29 = a/32 := by omega
  have blocks : blocked4 (⟨a,b,c,d⟩ : Octets).value =
      (a.val == 0 || a.val == 10 || a.val == 127 || a.val*256+b.val == 169*256+254 || a.val*16+b.val/16 == 2753 || a.val*256+b.val == 192*256+168 ||
        a.val*4+b.val/64 == 401 || a.val*256+b.val == 192*256+0 || a.val*128+b.val/2 == 25353 || a.val*256+b.val == 198*256+51 ||
        a.val*256+b.val == 203*256+0 || a.val/32 == 7) := by
    simp only [blocked4,blocks4,List.any_cons,List.any_nil,inBlock,Nat.reduceSub,by24,by16,by20,by22,by17,by29,Bool.or_false,Bool.or_assoc]
    rfl
  have pair : ∀ x y : Nat,y < 256 → (a.val*256+b.val == x*256+y) = (a.val == x && b.val == y) := by
    intro x y small
    rw [Bool.eq_iff_iff,Bool.and_eq_true]
    simp only [beq_iff_eq]
    omega
  have private12 : (a.val*16+b.val/16 == 2753) = (a.val == 172 && decide (16 ≤ b.val) && decide (b.val ≤ 31)) := by
    rw [Bool.eq_iff_iff,Bool.and_eq_true,Bool.and_eq_true]
    simp only [beq_iff_eq,decide_eq_true_eq]
    omega
  have carrier10 : (a.val*4+b.val/64 == 401) = (a.val == 100 && decide (64 ≤ b.val) && decide (b.val ≤ 127)) := by
    rw [Bool.eq_iff_iff,Bool.and_eq_true,Bool.and_eq_true]
    simp only [beq_iff_eq,decide_eq_true_eq]
    omega
  have benchmark15 : (a.val*128+b.val/2 == 25353) = (a.val == 198 && (b.val == 18 || b.val == 19)) := by
    rw [Bool.eq_iff_iff,Bool.and_eq_true,Bool.or_eq_true]
    simp only [beq_iff_eq]
    omega
  have multicast3 : (a.val/32 == 7) = decide (224 ≤ a.val) := by
    rw [Bool.eq_iff_iff]
    simp only [beq_iff_eq,decide_eq_true_eq]
    omega
  rw [blocks,isBlockedIpv4,ipv4Octets_text,pair 169 254 (by omega),pair 192 168 (by omega),pair 192 0 (by omega),pair 198 51 (by omega),
    pair 203 0 (by omega),private12,carrier10,benchmark15,multicast3]
  rfl

-- The groups as numbers.
theorem shown_octets (high low : Nat) (first : high < 65536) (second : low < 65536) :
    ∃ octets : Octets,shownIpv4 high low = octets.text ∧ octets.value = high*65536+low := by
  refine ⟨⟨⟨high/256,by omega⟩,⟨high%256,by omega⟩,⟨low/256,by omega⟩,⟨low%256,by omega⟩⟩,?_,?_⟩
  · have byte : ∀ n,n &&& 0xff = n%256 := fun n => Nat.and_two_pow_sub_one_eq_mod n 8
    have text : ∀ n : Nat,(toString n).toList = decimal n := fun n => Nat.toList_repr
    rw [shownIpv4]
    simp only [byte,text,Nat.shiftRight_eq_div_pow,Nat.reducePow,List.map_cons,List.map_nil,Octets.text,Octets.list,
      Nat.mod_eq_of_lt (show high/256 < 256 by omega),Nat.mod_eq_of_lt (show low/256 < 256 by omega)]
  · simp only [Octets.value]
    omega
theorem mask_parts (n mask block : Nat) :
    (n &&& mask == block) = ((n/256 &&& mask/256) == block/256 && (n%256 &&& mask%256) == block%256) := by
  have high : (n &&& mask)/256 = (n/256 &&& mask/256) := Nat.and_div_two_pow (n:=8)
  have low : (n &&& mask)%256 = (n%256 &&& mask%256) := Nat.and_mod_two_pow (n:=8)
  rw [← high,← low,Bool.eq_iff_iff,Bool.and_eq_true]
  simp only [beq_iff_eq]
  omega
theorem masks (n : Nat) (small : n < 65536) : (n &&& 0xfe00 == 0xfc00) = (n/512 == 0x7e) ∧ (n &&& 0xffc0 == 0xfe80) = (n/64 == 0x3fa) ∧
    (n &&& 0xff00 == 0xff00) = (n/256 == 0xff) := by
  have high : ∀ h : Fin 256,(h.val &&& 0xfe == 0xfc) = (h.val/2 == 0x7e) ∧ (h.val &&& 0xff) = h.val := by decide +kernel
  have low : ∀ l : Fin 256,(l.val &&& 0xc0 == 0x80) = (l.val/64 == 2) := by decide +kernel
  have local7 : (n/256 &&& 0xfe == 0xfc) = (n/256/2 == 0x7e) := (high ⟨n/256,by omega⟩).1
  have whole : (n/256 &&& 0xff) = n/256 := (high ⟨n/256,by omega⟩).2
  have link10 : (n%256 &&& 0xc0 == 0x80) = (n%256/64 == 2) := low ⟨n%256,by omega⟩
  refine ⟨?_,?_,?_⟩
  · rw [mask_parts]
    have halved : n/256/2 = n/512 := Nat.div_div_eq_div_mul n 256 2
    simp only [Nat.reduceDiv,Nat.reduceMod,Nat.and_zero,local7,halved]
    simp
  · rw [mask_parts]
    simp only [Nat.reduceDiv,Nat.reduceMod,link10,whole]
    rw [Bool.eq_iff_iff]
    simp only [Bool.and_eq_true,beq_iff_eq]
    omega
  · rw [mask_parts]
    simp only [Nat.reduceDiv,Nat.reduceMod,Nat.and_zero,whole]
    simp
theorem blocked6_groups {g0 g1 g2 g3 g4 g5 g6 g7 : Nat} (small : ∀ n ∈ [g0,g1,g2,g3,g4,g5,g6,g7],n < 65536) {addr : List Char}
    (expanded : expandIpv6 addr = some [g0,g1,g2,g3,g4,g5,g6,g7]) :
    isBlockedIpv6 addr = blocked6 (value6 [g0,g1,g2,g3,g4,g5,g6,g7]) := by
  obtain ⟨s0,s1,s2,s3,s4,s5,s6,s7⟩ :
      g0 < 65536 ∧ g1 < 65536 ∧ g2 < 65536 ∧ g3 < 65536 ∧ g4 < 65536 ∧ g5 < 65536 ∧ g6 < 65536 ∧ g7 < 65536 := by
    simpa using small
  obtain ⟨octets,text,value⟩ := shown_octets g6 g7 s6 s7
  let upper := 65536*(65536*(65536*(65536*(65536*g0+g1)+g2)+g3)+g4)+g5
  have whole : value6 [g0,g1,g2,g3,g4,g5,g6,g7] = upper*2^32+octets.value := by
    simp only [value6,List.foldl_cons,List.foldl_nil,value,upper]
    omega
  have low : octets.value < 2^32 := by omega
  have front : value6 [g0,g1,g2,g3,g4,g5,g6,g7]/2^32 = upper := by omega
  have back : value6 [g0,g1,g2,g3,g4,g5,g6,g7]%2^32 = octets.value := by omega
  obtain ⟨local7,link10,multicast8⟩ := masks g0 s0
  let lower := 65536*(65536*(65536*(65536*(65536*(65536*g1+g2)+g3)+g4)+g5)+g6)+g7
  have split : value6 [g0,g1,g2,g3,g4,g5,g6,g7] = g0*2^112+lower := by
    simp only [value6,List.foldl_cons,List.foldl_nil,lower]
    omega
  have below : lower < 2^112 := by omega
  have blocks : blocks6.any (inBlock 128 (value6 [g0,g1,g2,g3,g4,g5,g6,g7])) = (g0/512 == 0x7e || g0/64 == 0x3fa || g0/256 == 0xff) := by
    have by121 : value6 [g0,g1,g2,g3,g4,g5,g6,g7]/2^121 = g0/512 := by
      rw [split]
      omega
    have by118 : value6 [g0,g1,g2,g3,g4,g5,g6,g7]/2^118 = g0/64 := by
      rw [split]
      omega
    have by120 : value6 [g0,g1,g2,g3,g4,g5,g6,g7]/2^120 = g0/256 := by
      rw [split]
      omega
    simp only [blocks6,List.any_cons,List.any_nil,inBlock,Nat.reduceSub,by121,by118,by120,Bool.or_false,Bool.or_assoc]
    rfl
  have embeds : embedsIpv4 (value6 [g0,g1,g2,g3,g4,g5,g6,g7]) = ([g0,g1,g2,g3,g4].all (· == 0) && (g5 == 0xffff || g5 == 0)) := by
    rw [embedsIpv4,front,Bool.eq_iff_iff]
    simp only [List.all_cons,List.all_nil,Bool.or_eq_true,Bool.and_eq_true,beq_iff_eq,Bool.and_true,upper]
    omega
  rw [isBlockedIpv6,expanded]
  dsimp only
  rw [blocked6,embeds,blocks,back,text,blocked4_octets,local7,link10,multicast8]
  have zero : blocked4 0 = true := by decide
  have one : blocked4 1 = true := by decide
  by_cases embedded : ([g0,g1,g2,g3,g4].all (· == 0) && (g5 == 0xffff || g5 == 0)) = true
  · rw [if_pos embedded]
    split
    · rename_i all
      have nothing : octets.value = 0 := by
        simp only [List.all_cons,List.all_nil,Bool.and_eq_true,beq_iff_eq,Bool.and_true] at all
        omega
      rw [nothing,zero]
    · split
      · rename_i all
        have loopback : octets.value = 1 := by
          simp only [List.all_cons,List.all_nil,Bool.and_eq_true,beq_iff_eq,Bool.and_true] at all
          omega
        rw [loopback,one]
      · rfl
  · have other : ([g0,g1,g2,g3,g4].all (· == 0)) = true → g5 ≠ 0 := by
      rintro five rfl
      exact embedded (by rw [five]; rfl)
    rw [if_neg embedded,if_neg,if_neg]
    · intro all
      simp only [List.all_cons,List.all_nil,Bool.and_eq_true,beq_iff_eq,Bool.and_true] at all other
      exact other ⟨all.1.1,all.1.2.1,all.1.2.2.1,all.1.2.2.2.1,all.1.2.2.2.2.1⟩ all.1.2.2.2.2.2.1
    · intro all
      simp only [List.all_cons,List.all_nil,Bool.and_eq_true,beq_iff_eq,Bool.and_true] at all other
      exact other ⟨all.1,all.2.1,all.2.2.1,all.2.2.2.1,all.2.2.2.2.1⟩ all.2.2.2.2.2.1

-- No text is of both forms.
theorem joined_colon {parts : List (List Char)} (two : 2 ≤ parts.length) : ':' ∈ joined parts := by
  match parts,two with
  | part :: next :: rest,_ =>
    rw [joined_cons (by simp)]
    simp
theorem text6_colon {addr : List Char} {values : List Nat} (text : Text6 addr values) : ':' ∈ addr := by
  obtain ⟨bare,zone,rfl,-,form⟩ := text
  refine List.mem_append_left _ ?_
  rcases form with ⟨⟨parts,groups,rfl⟩ | ⟨parts,front,octets,groups,rfl,rfl⟩,eight⟩ | ⟨head,tail,_,_,rfl,-⟩
  · refine joined_colon ?_
    have same := groups.length_eq
    omega
  · refine joined_colon ?_
    have same := groups.length_eq
    have pair : octets.groups.length = 2 := rfl
    rw [List.length_append] at eight
    simp only [List.length_append,List.length_singleton]
    omega
  · simp
theorem text4_blocked {addr : String} {octets : Octets} (text : Text4 addr.toList octets) : isBlockedAddress addr = blocked4 octets.value := by
  have four : isIP addr.toList = 4 := by rw [isIP,if_pos ((isIPv4_exact _).mpr ⟨octets,text⟩)]
  rw [isBlockedAddress,four,← blocked4_octets,← text]
  rfl
theorem text6_blocked {addr : String} {values : List Nat} (text : Text6 addr.toList values) :
    isBlockedAddress addr = blocked6 (value6 values) := by
  have other : isIPv4 addr.toList = false := by
    refine Bool.eq_false_iff.mpr fun accepted => ?_
    obtain ⟨octets,same⟩ := (isIPv4_exact _).mp accepted
    exact (octets_plain octets).1.1 (same ▸ text6_colon text)
  have six : isIP addr.toList = 6 := by rw [isIP,other,if_neg Bool.false_ne_true,if_pos ((isIPv6_exact _).mpr ⟨values,text⟩)]
  obtain ⟨eight,small⟩ := text6_groups text
  rw [isBlockedAddress,six]
  match values,eight,small,expandIpv6_exact text with
  | [g0,g1,g2,g3,g4,g5,g6,g7],_,small,expanded => exact blocked6_groups small expanded

-- What is blocked depends on the address alone, and what is no address is blocked.
theorem blocking_exact :
    (∀ (addr : String) (octets : Octets),Text4 addr.toList octets → isBlockedAddress addr = blocked4 octets.value) ∧
    (∀ (addr : String) (values : List Nat),Text6 addr.toList values → isBlockedAddress addr = blocked6 (value6 values)) ∧
    (∀ (addr inner : String) (values : List Nat) (octets : Octets),Text6 addr.toList values → Text4 inner.toList octets →
      embedsIpv4 (value6 values) = true → value6 values%2^32 = octets.value → isBlockedAddress addr = isBlockedAddress inner) ∧
    ∀ addr : String,(¬∃ octets,Text4 addr.toList octets) → (¬∃ values,Text6 addr.toList values) → isBlockedAddress addr = true := by
  refine ⟨fun _ _ => text4_blocked,fun _ _ => text6_blocked,?_,?_⟩
  · intro addr inner values octets outer text embedded same
    rw [text6_blocked outer,text4_blocked text,blocked6,if_pos embedded,same]
  · intro addr not4 not6
    have other : isIPv4 addr.toList = false := Bool.eq_false_iff.mpr fun accepted => not4 ((isIPv4_exact _).mp accepted)
    have neither : isIPv6 addr.toList = false := Bool.eq_false_iff.mpr fun accepted => not6 ((isIPv6_exact _).mp accepted)
    have none : isIP addr.toList = 0 := by rw [isIP,other,neither]; rfl
    rw [isBlockedAddress,none]
    rfl
theorem blocking_exact_loopback : isBlockedAddress "127.0.0.1" = true ∧ isBlockedAddress "::ffff:127.0.0.1" = isBlockedAddress "127.0.0.1" ∧
    isBlockedAddress "localhost" = true := by
  have inner : Text4 "127.0.0.1".toList ⟨127,0,0,1⟩ := by
    unfold Text4
    decide
  have outer : Text6 "::ffff:127.0.0.1".toList [0,0,0,0,0,0xffff,0x7f00,1] := by
    refine ⟨_,[],(List.append_nil _).symm,.inl rfl,
      .inr ⟨[],"ffff:127.0.0.1".toList,[],[0xffff,0x7f00,1],?_,⟨[],.nil,rfl⟩,?_,by decide,rfl⟩⟩
    · decide
    · exact .inr ⟨["ffff".toList],[0xffff],⟨127,0,0,1⟩,.cons (by unfold Group; decide) .nil,by decide,rfl⟩
  obtain ⟨four,-,mapped,neither⟩ := blocking_exact
  refine ⟨(four _ _ inner).trans (by decide),mapped _ _ _ _ outer inner (by decide) (by decide),neither _ ?_ ?_⟩
  · intro some4
    have accepted := (isIPv4_exact _).mpr some4
    revert accepted
    decide
  · intro some6
    have accepted := (isIPv6_exact _).mpr some6
    revert accepted
    decide

end Elchi.Outbound
