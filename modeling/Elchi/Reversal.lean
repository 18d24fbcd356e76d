import Elchi.OrderSolo
import Elchi.SoldOrders
namespace Elchi.Orders
open RowLock

-- What a leg does to a cashbox, and the leg that undoes it.
abbrev Booking := Nat × CashboxType × Int
def BalanceLeg.signed (leg : BalanceLeg) : Int := if leg.operationType = .income then leg.amount else -leg.amount
def BalanceLeg.booking (leg : BalanceLeg) : Booking := (leg.userId,leg.cashboxType,leg.signed)
def opposite (booking : Booking) : Booking := (booking.1,booking.2.1,-booking.2.2)
def posting (userId : Nat) (type : CashboxType) (signed : Int) : List Booking := if signed = 0 then [] else [(userId,type,signed)]

theorem posting_opposite (userId : Nat) (type : CashboxType) (signed : Int) :
    (posting userId type signed).map opposite = posting userId type (-signed) := by
  unfold posting
  by_cases zero : signed = 0
  · simp [zero]
  · simp [zero,opposite]

theorem movement_booking (leg : BalanceLeg) (signed : Int) :
    (movement leg signed).map BalanceLeg.booking = posting leg.userId leg.cashboxType signed := by
  unfold movement posting
  split
  · rename_i positive
    rw [if_neg (by omega)]
    rfl
  · split
    · rename_i negative
      rw [if_neg (by omega)]
      simp [BalanceLeg.booking,BalanceLeg.signed]
    · rw [if_pos (by omega)]
      rfl

def codBookings (marketId : Nat) (courier branch : Option Nat) (marketAmount courierAmount branchAmount : Int) : List Booking :=
  posting marketId .forMarket marketAmount ++ ((courier.elim [] fun userId => posting userId .forCourier courierAmount) ++
    branch.elim [] fun userId => posting userId .branch branchAmount)

theorem codLegs_booking (leg : BalanceLeg) (marketId : Nat) (courier branch : Option Nat) (marketAmount courierAmount branchAmount : Int) :
    (codLegs leg marketId courier branch marketAmount courierAmount branchAmount).map BalanceLeg.booking =
      codBookings marketId courier branch marketAmount courierAmount branchAmount := by
  unfold codLegs codBookings
  rw [List.map_append,List.map_append,movement_booking,List.append_assoc]
  cases courier with
  | none =>
    cases branch with
    | none => rfl
    | some branchId => simp [movement_booking]
  | some courierId =>
    cases branch with
    | none => simp [movement_booking]
    | some branchId => simp [movement_booking]

theorem codBookings_opposite (marketId : Nat) (courier branch : Option Nat) (marketAmount courierAmount branchAmount : Int) :
    (codBookings marketId courier branch marketAmount courierAmount branchAmount).map opposite =
      codBookings marketId courier branch (-marketAmount) (-courierAmount) (-branchAmount) := by
  unfold codBookings
  rw [List.map_append,List.map_append,posting_opposite]
  cases courier with
  | none =>
    cases branch with
    | none => rfl
    | some branchId => simp [posting_opposite]
  | some courierId =>
    cases branch with
    | none => simp [posting_opposite]
    | some branchId => simp [posting_opposite]

theorem rollbackExtra_booking (leg : BalanceLeg) (marketId : Nat) (actor : Option (Nat × CashboxType)) (marketCost actorCost : Int) :
    (rollbackExtra leg marketId actor marketCost actorCost).map BalanceLeg.booking =
      posting marketId .forMarket marketCost ++ actor.elim [] fun expense => posting expense.1 expense.2 actorCost := by
  unfold rollbackExtra
  rw [List.map_append,movement_booking]
  cases actor with
  | none => rfl
  | some expense => simp [movement_booking]

theorem numbered_booking (epoch : String) (legs : List BalanceLeg) :
    (numbered epoch legs).map BalanceLeg.booking = legs.map BalanceLeg.booking := by
  have numbers : ∀ start,(legs.zipIdx start).map (fun entry => entry.1.booking) = legs.map BalanceLeg.booking := by
    induction legs with
    | nil => exact fun _ => rfl
    | cons leg rest ih => exact fun start => by simp [List.zipIdx_cons,ih]
  rw [numbered,List.map_map]
  exact numbers 0

theorem saleParties_parts (found : saleParties lookups requester order courierId = .ok parties) :
    lookups.markets order.marketId = some parties.market ∧
    parties.courier = (if requester.isManagerRequester then none else some courierId) ∧
    (requester.isManagerRequester = false → (lookups.cashboxes courierId .forCourier).isSome = true) ∧
    (if requester.isManagerRequester then lookups.users requester.id else lookups.couriers courierId) = some parties.financialActor := by
  unfold saleParties at found
  split at found
  · cases found
  rename_i market known
  split at found
  · cases found
  rename_i actor acting
  split at found
  · cases found
  split at found
  · rename_i manager
    cases found
    refine ⟨known,by simp [manager],?_,acting⟩
    intro absent
    rw [manager] at absent
    cases absent
  · rename_i courier
    split at found
    · cases found
    · rename_i balance cashbox
      cases found
      refine ⟨known,by simp [courier],?_,acting⟩
      intro _
      rw [cashbox]
      rfl

-- A dto that names neither branch nor courier moves no holder column.
theorem updatedOrder_plain (lookups : Lookups) (requesterId : Option Nat) {dto : UpdateDto} (order : Order)
    (plain : dto.recalculatesHolder = false) : updatedOrder lookups requesterId dto order = dto.assign order := by
  have reheld : dto.rehold lookups (dto.assign order) = dto.assign order := by simp [UpdateDto.rehold,plain]
  have kept : custodyChanged order (dto.assign order) = false := by simp [custodyChanged,UpdateDto.assign]
  rw [updatedOrder,reheld,handover,kept]
  rfl

-- What a sale leaves on the row for a later rollback, and what it does not touch.
structure SaleColumns (order : Order) (terms : SaleTerms) (time : Nat) (sold : Order) : Prop where
  marketId : sold.marketId = order.marketId
  whereDeliver : sold.whereDeliver = order.whereDeliver
  totalPrice : sold.totalPrice = terms.price
  marketTariff : sold.marketTariff = some (order.marketTariff.getD terms.marketTariff)
  courierShare : sold.courierShare = some terms.courierShare
  branchCashboxAmount : sold.branchCashboxAmount = some terms.branchNet
  status : isSold sold.status = true
  soldAt : sold.soldAt = some time
structure SameCustody (order sold : Order) : Prop where
  postId : sold.postId = order.postId
  branchId : sold.branchId = order.branchId
  courierId : sold.courierId = order.courierId
  holderBranchId : sold.holderBranchId = order.holderBranchId
  holderCourierId : sold.holderCourierId = order.holderCourierId

theorem sell_columns {id : Nat} (passed : updateOrder lookups requesterId
    (salePlan lookups requester id order requestId courierId parties terms kind comment files paid time).update order = .ok updated)
    (whole : terms.price = order.totalPrice) (now : Nat) (stored : Order) :
    SaleColumns order terms time (saveOrder now updated stored) ∧ SameCustody order (saveOrder now updated stored) := by
  have assigned := (updateOrder_parts passed).1.trans (updatedOrder_plain lookups requesterId order rfl)
  obtain ⟨moment,saved⟩ := saveOrder_parts now updated stored
  rw [saved,assigned]
  exact ⟨⟨rfl,rfl,whole.symm,rfl,rfl,rfl,saleStatus_sold _ _,rfl⟩,⟨rfl,rfl,rfl,rfl,rfl⟩⟩

theorem custody_actor (same : SameCustody order sold) (requester : Requester) (post : Option (Option Nat)) :
    resolveActorCourierId requester sold post = resolveActorCourierId requester order post := by
  simp only [resolveActorCourierId,same.holderCourierId,same.courierId,same.holderBranchId,same.branchId]
theorem custody_branch (same : SameCustody order sold) (lookups : Lookups) :
    resolveSettlementBranchId lookups sold = resolveSettlementBranchId lookups order := by
  simp only [resolveSettlementBranchId,same.holderBranchId,same.branchId]

-- The extra cost a rollback of a sale made at `soldAt` finds in a cashbox owner's history.
def extraCostNear (lookups : Lookups) (id userId soldAt : Nat) : Int :=
  match lookups.extraCosts userId id with
  | none => 0
  | some cost => if cost.amount > 0 ∧ isNearInTime soldAt cost.createdAt then cost.amount else 0

theorem extraCostNear_nonneg (lookups : Lookups) (id userId soldAt : Nat) : 0 ≤ extraCostNear lookups id userId soldAt := by
  unfold extraCostNear
  split
  · omega
  · split
    · omega
    · omega

theorem standingExtraCost_sold (lookups : Lookups) (id : Nat) (order : Order) (userId soldAt : Nat) (sold : isSold order.status = true)
    (time : order.soldAt = some soldAt) : standingExtraCost lookups id order userId = extraCostNear lookups id userId soldAt := by
  unfold standingExtraCost extraCostNear
  cases lookups.extraCosts userId id with
  | none => rfl
  | some cost => simp [sold,time]

-- Between the sale and the rollback the other services' answers may change in everything but
-- who carries the order, which cashboxes exist and which branch is the head office.
structure TariffsOnly (first second : Lookups) : Prop where
  posts : second.posts = first.posts
  cashboxes : ∀ userId type,(second.cashboxes userId type).isSome = (first.cashboxes userId type).isSome
  hqBranchId : second.hqBranchId = first.hqBranchId

theorem tariffsOnly_branch (world : TariffsOnly first second) (order : Order) :
    branchCashboxOf second (resolveSettlementBranchId second order) = branchCashboxOf first (resolveSettlementBranchId first order) := by
  have same : resolveSettlementBranchId second order = resolveSettlementBranchId first order := by
    simp only [resolveSettlementBranchId,world.hqBranchId]
  rw [same]
  unfold branchCashboxOf
  cases resolveSettlementBranchId first order with
  | none => rfl
  | some branch => simp [Option.filter,world.cashboxes]

-- When the corrections are the sale's legs turned round, as a fact about the amounts alone.
theorem postings_cancel (marketId actorId : Nat) (type : CashboxType) (other : type ≠ .forMarket) (found actorCost snapshot live price : Int)
    (positive : 0 ≤ found) :
    posting marketId .forMarket found ++ posting actorId type actorCost ++ posting marketId .forMarket (snapshot - price) =
      posting marketId .forMarket (live - price) ↔
    actorCost = 0 ∧ found = live - snapshot ∧ (found = 0 ∨ snapshot = price) := by
  constructor
  · intro same
    have quiet : actorCost = 0 := by
      by_contra cost
      have member : (actorId,type,actorCost) ∈ posting marketId .forMarket (live - price) := by
        rw [←same]
        simp [posting,cost]
      unfold posting at member
      split at member
      · cases member
      · cases List.mem_singleton.mp member
        exact other rfl
    refine ⟨quiet,?_⟩
    rw [quiet] at same
    unfold posting at same
    by_cases none : found = 0
    · rw [if_pos none] at same
      by_cases even : snapshot - price = 0
      · simp only [even,if_true,List.append_nil] at same
        split at same
        · omega
        · cases same
      · simp only [if_neg even,if_true,List.append_nil,List.nil_append] at same
        split at same
        · cases same
        · simp at same
          omega
    · rw [if_neg none] at same
      by_cases even : snapshot - price = 0
      · simp only [even,if_true,List.append_nil] at same
        split at same
        · cases same
        · simp at same
          omega
      · simp only [if_neg even,if_true,List.append_nil] at same
        split at same
        · cases same
        · simp at same
  · rintro ⟨rfl,rfl,none | even⟩
    · have equal : live = snapshot := by omega
      simp [posting,equal]
    · simp [posting,even]

def effect (booking : Booking) (userId : Nat) (type : CashboxType) : Int :=
  if booking.1 = userId ∧ booking.2.1 = type then booking.2.2 else 0
theorem effect_opposite (booking : Booking) (userId : Nat) (type : CashboxType) :
    effect (opposite booking) userId type = -effect booking userId type := by
  unfold effect opposite
  split
  · rfl
  · rfl

def net (legs : List BalanceLeg) (userId : Nat) (type : CashboxType) : Int :=
  ((legs.filter fun leg => leg.userId == userId && leg.cashboxType == type).map BalanceLeg.signed).sum
-- Leg by leg the negation of what was posted, so that no cashbox is changed by both together.
def Undoes (back posted : List BalanceLeg) : Prop :=
  back.map BalanceLeg.booking = (posted.map BalanceLeg.booking).map opposite ∧
  ∀ userId type,net (posted ++ back) userId type = 0

theorem net_append (left right : List BalanceLeg) (userId : Nat) (type : CashboxType) :
    net (left ++ right) userId type = net left userId type + net right userId type := by
  simp [net]
theorem net_cons (leg : BalanceLeg) (rest : List BalanceLeg) (userId : Nat) (type : CashboxType) :
    net (leg :: rest) userId type = effect leg.booking userId type + net rest userId type := by
  unfold effect
  by_cases same : leg.userId = userId ∧ leg.cashboxType = type
  · simp [net,BalanceLeg.booking,same]
  · rw [BalanceLeg.booking,if_neg same]
    have skipped : (leg.userId == userId && leg.cashboxType == type) = false := by simpa using same
    simp [net,skipped]

theorem undoes_exact {back posted : List BalanceLeg} :
    Undoes back posted ↔ back.map BalanceLeg.booking = (posted.map BalanceLeg.booking).map opposite := by
  constructor
  · exact And.left
  · intro turned
    refine ⟨turned,fun userId type => ?_⟩
    rw [net_append]
    induction posted generalizing back with
    | nil =>
      cases List.map_eq_nil_iff.mp turned
      rfl
    | cons leg rest ih =>
      cases back with
      | nil => cases turned
      | cons undo others =>
        obtain ⟨head,tail⟩ := List.cons.inj turned
        have cancelled := ih tail
        rw [net_cons,net_cons,head,effect_opposite]
        omega

-- sellOrder's tariffs are live, the row keeps an older snapshot, and the rollback reads the row.
def SnapshotStands (first second : Lookups) (requester : Requester) (id : Nat) (order : Order) (courierId : Nat) (live : Int) : Prop :=
  extraCostNear second id order.marketId first.now = live - order.marketTariff.getD live ∧
  (extraCostNear second id order.marketId first.now = 0 ∨ order.marketTariff.getD live = order.totalPrice) ∧
  (extraCostNear second id (actorExpense requester courierId).1 first.now = 0 ∨
    second.cashboxes (actorExpense requester courierId).1 (actorExpense requester courierId).2 = none)

instance {id : Nat} : Decidable (SnapshotStands first second requester id order courierId live) := inferInstanceAs (Decidable (_ ∧ _ ∧ _))

theorem salePlan_booking {id : Nat} (none : terms.extraCost ≤ 0) :
    (salePlan lookups requester id order requestId courierId parties terms kind comment files paid soldAt).legs.map BalanceLeg.booking =
      codBookings order.marketId parties.courier terms.branch (terms.price - terms.marketTariff) (terms.price - terms.courierShare)
        terms.branchNet := by
  have quiet : (salePlan lookups requester id order requestId courierId parties terms kind comment files paid soldAt).extra = [] := by
    simp only [salePlan,extraCostLegs]
    rw [if_neg (by omega)]
  rw [SalePlan.legs,quiet,List.append_nil]
  exact codLegs_booking _ _ _ _ _ _ _

theorem reversal_booking {id : Nat} (sold : isSold order.status = true) (share : order.courierShare = some courierShare)
    (amount : order.branchCashboxAmount = some branchAmount) :
    (reversal lookups requester id order target requestId courierId parties).legs.map BalanceLeg.booking =
      posting order.marketId .forMarket (standingExtraCost lookups id order order.marketId) ++
        ((if (lookups.cashboxes (actorExpense requester courierId).1 (actorExpense requester courierId).2).isSome then
            some (actorExpense requester courierId) else none).elim [] fun expense =>
          posting expense.1 expense.2 (standingExtraCost lookups id order (actorExpense requester courierId).1)) ++
        codBookings order.marketId parties.courier (branchCashboxOf lookups (resolveSettlementBranchId lookups order))
          (order.marketTariff.getD (parties.market.tariff order.whereDeliver) - order.totalPrice) (courierShare - order.totalPrice)
          (-branchAmount) := by
  rw [RollbackPlan.legs,numbered_booking,List.map_append]
  simp only [reversal,sold,if_true,share,amount,Option.getD_some]
  rw [rollbackExtra_booking,codLegs_booking]

theorem update_row_here (table : Table OrderRow) {id : Nat} (here : table.row id = some row) (save : OrderRow → OrderRow) :
    (applyWrites table [.update id save]).row id = some (save row) := by
  rw [applyWrites_row,written_update,if_pos rfl,here,written_nil]
  rfl

-- A sale alone, in the terms the reversal needs.
theorem sellOrder_sold {id : Nat} {s0 s1 : OrderStore} (keyed : s0.table.Keyed) (here : s0.table.row id = some row)
    (performed : Performs (sellOrder lookups requester id dto requestId) s0 s1) :
    ∃ courierId parties comment files paid events after,
      resolveActorCourierId requester row.order (row.order.postId.bind lookups.posts) = .ok courierId ∧
      saleParties lookups requester row.order courierId = .ok parties ∧ s1.table.Keyed ∧ s1.table.row id = some after ∧
      s1.journal = s0.journal ++ events.map (id,·) ∧
      legsOf events = (salePlan lookups requester id row.order requestId courierId parties (sellTerms lookups requester row.order parties dto)
        "sotuvi" comment files paid lookups.now).legs ∧
      SaleColumns row.order (sellTerms lookups requester row.order parties dto) lookups.now after.order ∧
      SameCustody row.order after.order := by
  obtain ⟨found,plan,updated,stored,planned,passed,table,journal⟩ := sellOrder_performs keyed performed
  cases here.symm.trans stored
  obtain ⟨-,courierId,parties,comment,files,asked,resolved,acting,same⟩ := sellPlan_parts planned
  obtain ⟨columns,custody⟩ := sell_columns (same ▸ passed) rfl lookups.now row.order
  refine ⟨courierId,parties,comment,files,min (max asked 0) (sellTerms lookups requester row.order parties dto).net,_,
    soldRow lookups.now updated plan.settlement row,resolved,acting,?_,?_,journal,?_,columns,custody⟩
  · exact table ▸ applyWrites_keyed _ keyed
  · rw [table]
    exact update_row_here _ stored _
  · rw [legsOf_append,legsOf_status,List.append_nil,same,legsOf_sale]

theorem rollback_reverses {id : Nat} {s1 s2 : OrderStore} (keyed : s1.table.Keyed) (here : s1.table.row id = some row)
    (performed : Performs (rollbackOrderToWaiting lookups requester id targetStatus requestId) s1 s2) :
    ∃ courierId parties target events,
      resolveActorCourierId requester row.order (row.order.postId.bind lookups.posts) = .ok courierId ∧
      saleParties lookups requester row.order courierId = .ok parties ∧ s2.journal = s1.journal ++ events.map (id,·) ∧
      legsOf events = (reversal lookups requester id row.order target requestId courierId parties).legs := by
  obtain ⟨found,target,plan,updated,items,stored,-,-,-,planned,-,-,journal⟩ := rollback_performs keyed performed
  cases here.symm.trans stored
  obtain ⟨courierId,parties,resolved,acting,rfl⟩ := rollbackPlan_parts planned
  refine ⟨courierId,parties,target,_,resolved,acting,journal,?_⟩
  rw [legsOf_append,legsOf_status,List.append_nil,legsOf_reversal]

theorem expense_posting (expense : Nat × CashboxType) (found : Bool) (cost : Int) :
    ((if found = true then some expense else none).elim [] fun actor => posting actor.1 actor.2 cost) =
      posting expense.1 expense.2 (if found = true then cost else 0) := by
  cases found with
  | true => rfl
  | false => rfl

theorem sale_undone_exact {id : Nat} {s0 s1 s2 : OrderStore} (keyed : s0.table.Keyed) (world : TariffsOnly first second)
    (plain : dto.extraCost.getD 0 ≤ 0) (here : s0.table.row id = some row)
    (actor : resolveActorCourierId requester row.order (row.order.postId.bind first.posts) = .ok courierId)
    (known : first.markets row.order.marketId = some market)
    (sold : Performs (sellOrder first requester id dto requestId) s0 s1)
    (back : Performs (rollbackOrderToWaiting second requester id target requestId') s1 s2) :
    ∃ sale undo : List OrderEvent,s1.journal = s0.journal ++ sale.map (id,·) ∧ s2.journal = s1.journal ++ undo.map (id,·) ∧
      (Undoes (legsOf undo) (legsOf sale) ↔
        SnapshotStands first second requester id row.order courierId (market.tariff row.order.whereDeliver)) := by
  obtain ⟨saleCourier,parties,comment,files,paid,sale,after,resolved,acting,keyed1,left,journal1,saleLegs,columns,custody⟩ :=
    sellOrder_sold keyed here sold
  obtain ⟨backCourier,others,aim,undo,reresolved,reacting,journal2,undoLegs⟩ := rollback_reverses keyed1 left back
  refine ⟨sale,undo,journal1,journal2,?_⟩
  -- the same actor finds the same courier, market and branch again
  cases actor.symm.trans resolved
  rw [custody.postId,world.posts,custody_actor custody] at reresolved
  cases actor.symm.trans reresolved
  obtain ⟨market1,courier1,-,-⟩ := saleParties_parts acting
  cases known.symm.trans market1
  obtain ⟨-,courier2,cashbox2,-⟩ := saleParties_parts reacting
  have unspent : (sellTerms first requester row.order parties dto).extraCost ≤ 0 := by
    simp only [sellTerms,saleTerms]
    omega
  have branches : branchCashboxOf second (resolveSettlementBranchId second after.order) =
      (sellTerms first requester row.order parties dto).branch := by
    rw [tariffsOnly_branch world,custody_branch custody]
    rfl
  rw [undoes_exact,saleLegs,undoLegs,salePlan_booking unspent,reversal_booking columns.status columns.courierShare columns.branchCashboxAmount,
    codBookings_opposite,branches,courier1,courier2,columns.marketId,columns.marketTariff,columns.totalPrice,
    standingExtraCost_sold _ _ _ _ _ columns.status columns.soldAt,standingExtraCost_sold _ _ _ _ _ columns.status columns.soldAt]
  have suffix : ∀ (marketId : Nat) (courier branch : Option Nat) (x b c : Int),codBookings marketId courier branch x b c =
      posting marketId .forMarket x ++ codBookings marketId courier branch 0 b c := fun _ _ _ _ _ _ => rfl
  rw [expense_posting,Int.neg_sub,Int.neg_sub,suffix,suffix _ _ _ ((sellTerms first requester row.order parties dto).marketTariff - _),
    ←List.append_assoc,List.append_cancel_right_eq,
    postings_cancel _ _ _ (actorExpense_type requester courierId) _ _ _ _ _ (extraCostNear_nonneg _ _ _ _)]
  have actorSide : (if (second.cashboxes (actorExpense requester courierId).1 (actorExpense requester courierId).2).isSome = true then
      extraCostNear second id (actorExpense requester courierId).1 first.now else 0) = 0 ↔
      extraCostNear second id (actorExpense requester courierId).1 first.now = 0 ∨
        second.cashboxes (actorExpense requester courierId).1 (actorExpense requester courierId).2 = none := by
    cases second.cashboxes (actorExpense requester courierId).1 (actorExpense requester courierId).2 with
    | none => simp
    | some balance => simp
  rw [actorSide,SnapshotStands,and_comm,and_assoc]
  rfl

def sampleStore : OrderStore := ⟨sampleTable,[],12⟩
def sampleSale (marketTariff : Int) (now : Nat) : Request := sellOrder (sampleLookups marketTariff now) sampleCourier 11 {} (some "a")
def sampleRollback (marketTariff : Int) (now : Nat) : Request :=
  rollbackOrderToWaiting (sampleLookups marketTariff now) sampleCourier 11 none (some "b")
def leaves (request : Request) (store : OrderStore) : OrderStore := (request.perform store).2
def succeeds (request : Request) (store : OrderStore) : Bool :=
  match (request.perform store).1 with
  | some (.ok _) => true
  | _ => false

theorem succeeds_performs {request : Request} {store : OrderStore} (ok : succeeds request store = true) :
    Performs request store (leaves request store) := by
  unfold succeeds at ok
  split at ok
  · rename_i answer same
    exact ⟨answer,Prod.ext same rfl⟩
  · cases ok

theorem sampleTariffs (marketTariff later : Int) (now moment : Nat) :
    TariffsOnly (sampleLookups marketTariff now) (sampleLookups later moment) := ⟨rfl,fun _ _ => rfl,rfl⟩

-- A first sale is undone even when the market's tariff has changed by then.
theorem sale_undone_first_cycle : ∃ sale undo : List OrderEvent,
    (leaves (sampleSale 3000000 1000) sampleStore).journal = sampleStore.journal ++ sale.map (11,·) ∧
    legsOf sale ≠ [] ∧ Undoes (legsOf undo) (legsOf sale) := by
  have sold : Performs (sampleSale 3000000 1000) sampleStore _ := succeeds_performs (by decide)
  have back : Performs (sampleRollback 4000000 900000) (leaves (sampleSale 3000000 1000) sampleStore) _ := succeeds_performs (by decide +kernel)
  obtain ⟨sale,undo,journal,-,exact⟩ :=
    sale_undone_exact (by decide) (sampleTariffs 3000000 4000000 1000 900000) (by decide) rfl rfl rfl sold back
  refine ⟨sale,undo,journal,?_,exact.mpr (by decide)⟩
  rintro empty
  have posted : legsOf ((leaves (sampleSale 3000000 1000) sampleStore).journal.map (·.2)) ≠ [] := by decide
  apply posted
  rw [journal]
  simpa [sampleStore,Function.comp_def] using empty

-- In the second cycle the row still has the tariff of the first.
def secondCycle : OrderStore := leaves (sampleRollback 3000000 900000) (leaves (sampleSale 3000000 1000) sampleStore)
def secondSale : OrderStore := leaves (sampleSale 3500000 1000000) secondCycle
def secondRollback : OrderStore := leaves (sampleRollback 3500000 1900000) secondSale

theorem second_cycle_not_undone :
    succeeds (sampleSale 3500000 1000000) secondCycle = true ∧ succeeds (sampleRollback 3500000 1900000) secondSale = true ∧
    statusAt secondRollback.table 11 = some .waiting ∧
    net (legsOf (secondCycle.journal.map (·.2))) 1 .forMarket = 0 ∧
    net (legsOf (secondRollback.journal.map (·.2))) 1 .forMarket = -500000 := by
  decide +kernel

end Elchi.Orders
