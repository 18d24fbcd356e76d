import Elchi.Reversal
namespace Elchi.Orders
open RowLock

-- Which cashboxes the legs touch, and in which direction.
def direction (booking : Booking) : Booking := (booking.1,booking.2.1,booking.2.2.sign)
def places (legs : List BalanceLeg) : List Booking := (legs.map BalanceLeg.booking).map direction

-- The legs of the price alone: without an extra cost and without its return.
def BalanceLeg.ofExtraCost (leg : BalanceLeg) : Bool :=
  leg.sourceType == .extraCost || leg.sourceType == .correction && leg.comment == "Qo'shimcha xarajat orqaga qaytarildi"
def priceLegs (legs : List BalanceLeg) : List BalanceLeg := legs.filter fun leg => !leg.ofExtraCost

theorem posting_direction (userId : Nat) (type : CashboxType) (signed : Int) :
    (posting userId type signed).map direction = posting userId type signed.sign := by
  unfold posting
  by_cases zero : signed = 0
  · simp [zero]
  · simp [zero,direction,Int.sign_eq_zero_iff_zero]

theorem codBookings_direction (marketId : Nat) (courier branch : Option Nat) (marketAmount courierAmount branchAmount : Int) :
    (codBookings marketId courier branch marketAmount courierAmount branchAmount).map direction =
      codBookings marketId courier branch marketAmount.sign courierAmount.sign branchAmount.sign := by
  unfold codBookings
  rw [List.map_append,List.map_append,posting_direction]
  cases courier with
  | none =>
    cases branch with
    | none => rfl
    | some branchId => simp [posting_direction]
  | some courierId =>
    cases branch with
    | none => simp [posting_direction]
    | some branchId => simp [posting_direction]

def ofType (type : CashboxType) (booking : Booking) : Bool := booking.2.1 == type
theorem posting_ofType (userId : Nat) (kind type : CashboxType) (signed : Int) :
    (posting userId kind signed).filter (ofType type) = if kind = type then posting userId kind signed else [] := by
  unfold posting
  by_cases zero : signed = 0
  · simp [zero]
  · by_cases same : kind = type
    · simp [zero,ofType,same]
    · simp [zero,ofType,same]

theorem posting_exact (userId : Nat) (type : CashboxType) (left right : Int) :
    posting userId type left = posting userId type right ↔ left = right := by
  constructor
  · intro same
    unfold posting at same
    split at same
    · split at same
      · omega
      · cases same
    · split at same
      · cases same
      · simpa using same
  · rintro rfl
    rfl

def side (userId : Option Nat) (type : CashboxType) (signed : Int) : List Booking := userId.elim [] fun user => posting user type signed

theorem side_ofType (userId : Option Nat) (kind type : CashboxType) (signed : Int) :
    (side userId kind signed).filter (ofType type) = if kind = type then side userId kind signed else [] := by
  cases userId with
  | none => simp [side]
  | some user => simp [side,posting_ofType]

theorem side_exact (left right : Option Nat) (type : CashboxType) (signed : Int) :
    side left type signed = side right type signed ↔ signed = 0 ∨ left = right := by
  cases left with
  | none =>
    cases right with
    | none => simp
    | some other => simp [side,posting]
  | some user =>
    cases right with
    | none => simp [side,posting]
    | some other =>
      by_cases zero : signed = 0
      · simp [side,posting,zero]
      · simp [side,posting,zero]

theorem side_empty (userId : Option Nat) (type : CashboxType) (signed : Int) :
    side userId type signed = [] ↔ userId = none ∨ signed = 0 := by
  cases userId with
  | none => simp [side]
  | some user => simp [side,posting]

-- The three legs have three types of cashbox, so they can be compared one by one.
theorem codBookings_exact (marketId : Nat) (courier branch courier' branch' : Option Nat) (m c b m' c' b' : Int) :
    codBookings marketId courier branch m c b = codBookings marketId courier' branch' m' c' b' ↔
      m = m' ∧ side courier .forCourier c = side courier' .forCourier c' ∧ side branch .branch b = side branch' .branch b' := by
  have parts : ∀ (courier branch : Option Nat) (m c b : Int),codBookings marketId courier branch m c b =
      posting marketId .forMarket m ++ (side courier .forCourier c ++ side branch .branch b) := fun _ _ _ _ _ => rfl
  rw [parts,parts]
  constructor
  · intro same
    have ofMarket := congrArg (List.filter (ofType .forMarket)) same
    have ofCourier := congrArg (List.filter (ofType .forCourier)) same
    have ofBranch := congrArg (List.filter (ofType .branch)) same
    simp only [List.filter_append,posting_ofType,side_ofType,reduceCtorEq,if_true,if_false,List.append_nil,List.nil_append]
      at ofMarket ofCourier ofBranch
    exact ⟨(posting_exact _ _ _ _).mp ofMarket,ofCourier,ofBranch⟩
  · rintro ⟨rfl,couriers,branches⟩
    rw [couriers,branches]

-- The comment of a reversed leg starts with a bracket, so it is not the one of a returned extra cost.
theorem jsTrim_head (c : Char) (rest : List Char) (solid : jsSpace c = false) : ∃ kept,(jsTrim (String.ofList (c :: rest))).toList = c :: kept := by
  have tail : (rest.reverse ++ [c]).dropWhile jsSpace = rest.reverse.dropWhile jsSpace ++ [c] := by
    rw [List.dropWhile_append]
    cases rest.reverse.dropWhile jsSpace with
    | nil => simp [solid]
    | cons head others => simp
  refine ⟨(rest.reverse.dropWhile jsSpace).reverse,?_⟩
  simp [jsTrim,solid,tail]

theorem rollbackComment_apart (comment : String) {text : String} (other : text.toList.head? ≠ some '[') :
    jsTrim ("[ROLLBACK] " ++ comment) ≠ text := by
  intro same
  obtain ⟨kept,head⟩ := jsTrim_head '[' ("ROLLBACK] ".toList ++ comment.toList) (by decide)
  have bracket : "[ROLLBACK] " ++ comment = String.ofList ('[' :: ("ROLLBACK] ".toList ++ comment.toList)) := by
    apply String.toList_inj.mp
    simp
  rw [←bracket,same] at head
  rw [head] at other
  exact other rfl

theorem priceLegs_append (left right : List BalanceLeg) : priceLegs (left ++ right) = priceLegs left ++ priceLegs right := by
  simp [priceLegs]
theorem priceLegs_all {legs : List BalanceLeg} (price : ∀ leg ∈ legs,leg.ofExtraCost = false) : priceLegs legs = legs := by
  apply List.filter_eq_self.mpr
  intro leg member
  rw [price leg member]
  rfl
theorem priceLegs_none {legs : List BalanceLeg} (extra : ∀ leg ∈ legs,leg.ofExtraCost = true) : priceLegs legs = [] := by
  apply List.filter_eq_nil_iff.mpr
  intro leg member
  simp [extra leg member]

-- The number of a correction is not among what a leg moves.
theorem numbered_filter {test : BalanceLeg → Bool} (blind : ∀ leg epoch,test {leg with dedupEpoch:=epoch} = test leg) (epoch : String)
    (legs : List BalanceLeg) : ((numbered epoch legs).filter test).map BalanceLeg.booking = (legs.filter test).map BalanceLeg.booking := by
  have numbers : ∀ start,(((legs.zipIdx start).map fun entry => {entry.1 with dedupEpoch:=epoch ++ ":" ++ toString entry.2}).filter test).map
      BalanceLeg.booking = (legs.filter test).map BalanceLeg.booking := by
    induction legs with
    | nil => exact fun _ => rfl
    | cons leg rest ih =>
      intro start
      have tail := ih (start+1)
      simp only [List.zipIdx_cons,List.map_cons,List.filter_cons,blind]
      cases test leg with
      | true =>
        simp only [if_true,List.map_cons,tail]
        rfl
      | false => exact tail
  exact numbers 0

theorem numbered_places (epoch : String) (legs : List BalanceLeg) : places (priceLegs (numbered epoch legs)) = places (priceLegs legs) :=
  congrArg (List.map direction) (numbered_filter (fun _ _ => rfl) epoch legs)

theorem salePlan_places {id : Nat} :
    places (priceLegs (salePlan lookups requester id order requestId courierId parties terms kind comment files paid soldAt).legs) =
      codBookings order.marketId parties.courier terms.branch (terms.price - terms.marketTariff).sign
        (terms.price - terms.courierShare).sign terms.branchNet.sign := by
  rw [SalePlan.legs,priceLegs_append,priceLegs_all,priceLegs_none,List.append_nil,places]
  · exact (congrArg _ (codLegs_booking _ _ _ _ _ _ _)).trans (codBookings_direction _ _ _ _ _ _)
  · intro leg member
    simp [BalanceLeg.ofExtraCost,(extraCostLegs_of member).source,saleLeg]
  · intro leg member
    simp [BalanceLeg.ofExtraCost,(codLegs_of member).source,saleLeg]

theorem reversal_places {id : Nat} (sold : isSold order.status = true) :
    places (priceLegs (reversal lookups requester id order target requestId courierId parties).legs) =
      codBookings order.marketId parties.courier (branchCashboxOf lookups (resolveSettlementBranchId lookups order))
        ((reversal lookups requester id order target requestId courierId parties).marketTariff - order.totalPrice).sign
        ((reversal lookups requester id order target requestId courierId parties).courierShare - order.totalPrice).sign
        (-(reversal lookups requester id order target requestId courierId parties).branchAmount).sign := by
  rw [RollbackPlan.legs,numbered_places,priceLegs_append,priceLegs_none,priceLegs_all,List.nil_append,places]
  · simp only [reversal,sold,if_true]
    rw [codLegs_booking,codBookings_direction]
  · intro leg member
    simp only [reversal,sold,if_true] at member
    have text := (codLegs_of member).comment
    simp only [saleLeg] at text
    have apart := rollbackComment_apart (order.comment.getD "") (show "Qo'shimcha xarajat orqaga qaytarildi".toList.head? ≠ some '[' by decide)
    simp [BalanceLeg.ofExtraCost,(codLegs_of member).source,saleLeg,text,apart]
  · intro leg member
    simp only [reversal,sold,if_true] at member
    have text := (rollbackExtra_of member).comment
    simp only [saleLeg] at text
    simp [BalanceLeg.ofExtraCost,(rollbackExtra_of member).source,saleLeg,text]

-- Who and what a rollback takes for the sale's parties and amounts: the courier of its own
-- requester, the order's branch of the day, and the row's snapshot where it has one.
def partCourier (lookups : Lookups) (requester : Requester) (order : Order) : Option Nat :=
  match resolveActorCourierId requester order (order.postId.bind lookups.posts) with
  | .ok courierId => if requester.isManagerRequester then none else some courierId
  | .error _ => none
def partBranch (lookups : Lookups) (order : Order) : Option Nat := branchCashboxOf lookups (resolveSettlementBranchId lookups order)
def liveTariff (lookups : Lookups) (order : Order) : Int :=
  ((lookups.markets order.marketId).map fun market => market.tariff order.whereDeliver).getD 0
def actorTariff (lookups : Lookups) (requester : Requester) (order : Order) : Int :=
  match resolveActorCourierId requester order (order.postId.bind lookups.posts) with
  | .ok courierId => ((if requester.isManagerRequester then lookups.users requester.id else lookups.couriers courierId).map
      fun staff => staff.tariff order.whereDeliver).getD 0
  | .error _ => 0
def reversedTariff (lookups : Lookups) (order : Order) : Int := order.marketTariff.getD (liveTariff lookups order)
def reversedShare (lookups : Lookups) (requester : Requester) (order : Order) : Int :=
  order.courierShare.getD (order.courierTariff.getD (actorTariff lookups requester order))
def reversedBranchAmount (lookups : Lookups) (requester : Requester) (order : Order) : Int :=
  order.branchCashboxAmount.getD (order.totalPrice - reversedShare lookups requester order - order.branchShare.getD 0)

theorem parties_courier (resolved : resolveActorCourierId requester order (order.postId.bind lookups.posts) = .ok courierId)
    (acting : saleParties lookups requester order courierId = .ok parties) : parties.courier = partCourier lookups requester order := by
  rw [(saleParties_parts acting).2.1,partCourier,resolved]

theorem reversal_parts {id : Nat} (resolved : resolveActorCourierId requester order (order.postId.bind lookups.posts) = .ok courierId)
    (acting : saleParties lookups requester order courierId = .ok parties) :
    (reversal lookups requester id order target requestId courierId parties).marketTariff = reversedTariff lookups order ∧
    (reversal lookups requester id order target requestId courierId parties).courierShare = reversedShare lookups requester order ∧
    (reversal lookups requester id order target requestId courierId parties).branchAmount =
      reversedBranchAmount lookups requester order := by
  obtain ⟨market,-,-,staff⟩ := saleParties_parts acting
  have live : liveTariff lookups order = parties.market.tariff order.whereDeliver := by simp [liveTariff,market]
  have pay : actorTariff lookups requester order = parties.financialActor.tariff order.whereDeliver := by
    simp only [actorTariff,resolved]
    rw [staff]
    rfl
  refine ⟨?_,?_,?_⟩
  · rw [reversedTariff,live]
    rfl
  · rw [reversedShare,pay]
    rfl
  · rw [reversedBranchAmount,reversedShare,pay]
    rfl

-- What a later state of the row keeps of the sale; custody, status and payments may change.
structure SameSale (sold later : Order) : Prop where
  marketId : later.marketId = sold.marketId
  whereDeliver : later.whereDeliver = sold.whereDeliver
  totalPrice : later.totalPrice = sold.totalPrice
  marketTariff : later.marketTariff = sold.marketTariff
  courierShare : later.courierShare = sold.courierShare
  branchCashboxAmount : later.branchCashboxAmount = sold.branchCashboxAmount

-- The ways into a sold state: a sale or a partial sale, or a provider's report.
def Call.EntersSale (id : Nat) : Call → Prop
  | .sell _ _ order _ _ => order = id
  | .partlySell _ _ order _ _ _ => order = id
  | .provider _ order action => order = id ∧ action = .sell
  | _ => False

-- When the rollback's places are the sale's.
def SamePlaces (call : Call) (order later : Order) (second : Lookups) (actor : Requester) : Prop :=
  match call with
  | .sell first requester _ _ _ =>
    (later.totalPrice - liveTariff first order).sign = (later.totalPrice - reversedTariff second later).sign ∧
    (reversedShare second actor later = later.totalPrice ∨ partCourier first requester order = partCourier second actor later) ∧
    (reversedBranchAmount second actor later = 0 ∨ partBranch first order = partBranch second later)
  | .partlySell first requester _ _ _ _ =>
    (reversedShare second actor later = later.totalPrice ∨ partCourier first requester order = partCourier second actor later) ∧
    (reversedBranchAmount second actor later = 0 ∨ partBranch first order = partBranch second later)
  | .provider _ _ _ =>
    later.totalPrice = reversedTariff second later ∧
    (partCourier second actor later = none ∨ reversedShare second actor later = later.totalPrice) ∧
    (partBranch second later = none ∨ reversedBranchAmount second actor later = 0)
  | _ => False

instance : Decidable (SamePlaces call order later second actor) :=
  match call with
  | .sell _ _ _ _ _ => inferInstanceAs (Decidable (_ ∧ _ ∧ _))
  | .partlySell _ _ _ _ _ _ => inferInstanceAs (Decidable (_ ∧ _))
  | .provider _ _ _ => inferInstanceAs (Decidable (_ ∧ _ ∧ _))
  | .cancel _ _ _ _ _ => .isFalse not_false
  | .rollback _ _ _ _ _ => .isFalse not_false
  | .update _ _ _ _ => .isFalse not_false
  | .sendBatch _ _ _ _ => .isFalse not_false
  | .receiveBatch _ _ _ _ => .isFalse not_false
  | .receiveBatchOrders _ _ _ _ _ => .isFalse not_false
  | .cancelBatch _ _ => .isFalse not_false

theorem sign_turned (left right : Int) : (left - right).sign = -(right - left).sign := by
  rw [←Int.sign_neg,Int.neg_sub]
theorem sign_zero (left right : Int) : (left - right).sign = 0 ↔ left = right := by
  rw [Int.sign_eq_zero_iff_zero]
  omega

-- The reversal against the sale, as a fact about the amounts and parties alone.
theorem places_exact (marketId : Nat) (courierA branchA courierB branchB : Option Nat) (price live tariff share branchAmount : Int) :
    codBookings marketId courierB branchB (tariff - price).sign (share - price).sign (-branchAmount).sign =
      (codBookings marketId courierA branchA (price - live).sign (price - share).sign branchAmount.sign).map opposite ↔
    (price - live).sign = (price - tariff).sign ∧ (share = price ∨ courierA = courierB) ∧ (branchAmount = 0 ∨ branchA = branchB) := by
  rw [codBookings_opposite,codBookings_exact,sign_turned tariff price,sign_turned share price,Int.sign_neg,side_exact,side_exact]
  constructor
  · rintro ⟨market,courier,branch⟩
    refine ⟨(Int.neg_inj.mp market).symm,?_,?_⟩
    · rcases courier with none | same
      · exact .inl ((sign_zero _ _).mp (Int.neg_eq_zero.mp none)).symm
      · exact .inr same.symm
    · rcases branch with none | same
      · exact .inl (Int.sign_eq_zero_iff_zero.mp (Int.neg_eq_zero.mp none))
      · exact .inr same.symm
  · rintro ⟨market,courier,branch⟩
    refine ⟨by rw [market],?_,?_⟩
    · rcases courier with none | same
      · exact .inl (Int.neg_eq_zero.mpr ((sign_zero _ _).mpr none.symm))
      · exact .inr same.symm
    · rcases branch with none | same
      · exact .inl (by rw [none]; rfl)
      · exact .inr same.symm

theorem no_places_exact (marketId : Nat) (courier branch : Option Nat) (price tariff share branchAmount : Int) :
    codBookings marketId courier branch (tariff - price).sign (share - price).sign (-branchAmount).sign = [] ↔
    price = tariff ∧ (courier = none ∨ share = price) ∧ (branch = none ∨ branchAmount = 0) := by
  have nothing : ([] : List Booking) = codBookings marketId none none 0 0 0 := rfl
  have empty : ∀ type,side none type 0 = [] := fun _ => rfl
  rw [nothing,codBookings_exact,empty,empty,side_empty,side_empty,sign_zero,sign_zero,Int.sign_eq_zero_iff_zero]
  constructor
  · rintro ⟨market,courier,branch⟩
    exact ⟨market.symm,courier,branch.imp_right (by omega)⟩
  · rintro ⟨market,courier,branch⟩
    exact ⟨market.symm,courier,branch.imp_right (by omega)⟩

theorem rollback_places {id : Nat} {s1 s2 : OrderStore} (keyed : s1.table.Keyed) (here : s1.table.row id = some row)
    (sold : isSold row.order.status = true)
    (performed : Performs (rollbackOrderToWaiting lookups requester id targetStatus requestId) s1 s2) :
    ∃ undo,s2.journal = s1.journal ++ undo.map (id,·) ∧ places (priceLegs (legsOf undo)) =
      codBookings row.order.marketId (partCourier lookups requester row.order) (partBranch lookups row.order)
        (reversedTariff lookups row.order - row.order.totalPrice).sign
        (reversedShare lookups requester row.order - row.order.totalPrice).sign
        (-reversedBranchAmount lookups requester row.order).sign := by
  obtain ⟨courierId,parties,target,undo,resolved,acting,journal,legs⟩ := rollback_reverses keyed here performed
  refine ⟨undo,journal,?_⟩
  obtain ⟨tariff,share,amount⟩ := reversal_parts resolved acting
  rw [legs,reversal_places sold,parties_courier resolved acting,tariff,share,amount]
  rfl

-- A sale of either kind against a later rollback of the row it left.
theorem sale_places {id : Nat} {order sold later : Order} (resolved : resolveActorCourierId requester order (order.postId.bind first.posts) = .ok courierId)
    (acting : saleParties first requester order courierId = .ok parties) (branch : terms.branch = partBranch first order)
    (columns : SaleColumns order terms time sold) (same : SameSale sold later) (second : Lookups) (actor : Requester) :
    codBookings later.marketId (partCourier second actor later) (partBranch second later)
        (reversedTariff second later - later.totalPrice).sign (reversedShare second actor later - later.totalPrice).sign
        (-reversedBranchAmount second actor later).sign =
      (places (priceLegs (salePlan first requester id order requestId courierId parties terms kind comment files paid soldAt).legs)).map
        opposite ↔
    (later.totalPrice - terms.marketTariff).sign = (later.totalPrice - reversedTariff second later).sign ∧
    (reversedShare second actor later = later.totalPrice ∨ partCourier first requester order = partCourier second actor later) ∧
    (reversedBranchAmount second actor later = 0 ∨ partBranch first order = partBranch second later) := by
  have courier := parties_courier resolved acting
  have share : terms.courierShare = reversedShare second actor later := by
    rw [reversedShare,same.courierShare,columns.courierShare]
    rfl
  have amount : terms.branchNet = reversedBranchAmount second actor later := by
    rw [reversedBranchAmount,same.branchCashboxAmount,columns.branchCashboxAmount]
    rfl
  have price : terms.price = later.totalPrice := by rw [same.totalPrice,columns.totalPrice]
  rw [salePlan_places,courier,branch,share,amount,price,←columns.marketId,←same.marketId]
  exact places_exact _ _ _ _ _ _ _ _ _ _

theorem partlySellOrder_sold {id : Nat} {s0 s1 : OrderStore} (keyed : s0.table.Keyed) (below : ∀ key ∈ s0.table.map (·.1),key < s0.nextId)
    (here : s0.table.row id = some row) (performed : Performs (partlySellOrder lookups requester id dto requestId token) s0 s1) :
    ∃ courierId parties comment files paid time events after,
      resolveActorCourierId requester row.order (row.order.postId.bind lookups.posts) = .ok courierId ∧
      saleParties lookups requester row.order courierId = .ok parties ∧ s1.table.row id = some after ∧
      s1.journal = s0.journal ++ events.map (id,·) ∧
      legsOf events = (salePlan lookups requester id row.order requestId courierId parties
        (partlySellTerms lookups requester row.order parties dto) "qisman sotuvi" comment files paid time).legs ∧
      SaleColumns row.order (partlySellTerms lookups requester row.order parties dto) time after.order := by
  obtain ⟨found,plan,updated,stored,planned,passed,table,journal⟩ := partlySellOrder_performs keyed performed
  cases here.symm.trans stored
  obtain ⟨-,courierId,parties,comment,files,asked,time,resolved,acting,same⟩ := partlySellPlan_parts planned
  refine ⟨courierId,parties,comment,files,min (max asked 0) (partlySellTerms lookups requester row.order parties dto).net,time,_,
    partlySoldRow lookups.now updated plan row,resolved,acting,?_,journal,?_,?_⟩
  · have apart : s0.nextId ≠ id := by
      have low := below id (List.mem_map.mpr ⟨_,(row_exact keyed).mpr stored,rfl⟩)
      omega
    rw [table,applyWrites_row,written_update,if_pos rfl,stored,written_cons]
    simp [Write.key,apart]
  · rw [legsOf_append,legsOf_status,List.append_nil,same]
    exact legsOf_sale
  · rw [same] at passed
    have assigned := (updateOrder_parts passed).1.trans (updatedOrder_plain lookups (some requester.id) row.order rfl)
    obtain ⟨moment,saved⟩ := saveOrder_parts lookups.now updated row.order
    rw [partlySoldRow,saved,assigned]
    exact ⟨rfl,rfl,rfl,rfl,rfl,rfl,saleStatus_sold _ _,rfl⟩

def firstSale : OrderStore := leaves (sampleSale 3000000 1000) sampleStore

-- The branch manager rolls back what the courier sold: the courier's leg stays.
def sampleManager : Requester := ⟨8,[.manager],some 3⟩
def managerRollback : Request :=
  rollbackOrderToWaiting {sampleLookups 3000000 900000 with users:=fun _ => some ⟨none,none,none⟩} sampleManager 11 none (some "b")

end Elchi.Orders
