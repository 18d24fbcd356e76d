import Mathlib.Data.Rat.Floor
import Elchi.AutoPayment
import Elchi.ReversalPlaces
namespace Elchi.Orders
open RowLock

-- order-money.ts counts in so'm and rounds to the two decimals of the columns.
def mathRound (n : Rat) : Int := ⌊n + 1/2⌋
def round2 (n : Rat) : Rat := mathRound (n * 100) / 100
def som (tiyin : Int) : Rat := tiyin / 100

structure SaleShareInputs where
  total : Rat
  marketTariff : Rat
  courierShare : Rat
  branchShare : Rat
structure ComputedLegs where
  marketReceivable : Rat
  courierKept : Rat
  branchKept : Rat
  hqProfit : Rat
  courierAmount : Rat
  branchAmount : Rat
  marketAmount : Rat
def computeSaleLegs (i : SaleShareInputs) : ComputedLegs where
  marketReceivable := round2 (i.total - i.marketTariff)
  courierKept := round2 i.courierShare
  branchKept := round2 i.branchShare
  hqProfit := round2 (i.marketTariff - i.courierShare - i.branchShare)
  courierAmount := round2 (i.total - i.courierShare)
  branchAmount := round2 (i.total - i.courierShare - i.branchShare)
  marketAmount := round2 (i.total - i.marketTariff)

-- What a sale enqueues: its legs of the price, and the profit that enters the financial balance.
def sellLegs (events : List OrderEvent) : List BalanceLeg := (legsOf events).filter (·.sourceType == .sell)
def OrderEvent.profit : OrderEvent → Int
  | .financialBalance amount .sellProfit _ _ _ => amount
  | _ => 0
def profitOf (events : List OrderEvent) : Int := (events.map OrderEvent.profit).sum

-- The records of one sale: the shares and the settlement on its row, and what it enqueued.
structure RecordsAgree (lookups : Lookups) (requester : Requester) (order : Order) (courierShare branchShare : Int)
    (settlement : OrderSettlement) (events : List OrderEvent) : Prop where
  conserved : net (sellLegs events) order.marketId .forMarket + courierShare + branchShare + profitOf events = order.totalPrice
  courierLeg : ∀ courier,partCourier lookups requester order = some courier →
    net (sellLegs events) courier .forCourier = order.totalPrice - courierShare
  branchLeg : ∀ branch,partBranch lookups order = some branch →
    net (sellLegs events) branch .branch = order.totalPrice - courierShare - branchShare
  settled : settlement.marketAmount = max (net (sellLegs events) order.marketId .forMarket) 0 ∧
    settlement.courierAmount = max (order.totalPrice - courierShare) 0 ∧
    settlement.branchAmount = max (order.totalPrice - courierShare - branchShare) 0
  computed : computeSaleLegs ⟨som order.totalPrice,som (liveTariff lookups order),som courierShare,som branchShare⟩ =
    {marketReceivable:=som (net (sellLegs events) order.marketId .forMarket),courierKept:=som courierShare,branchKept:=som branchShare,
     hqProfit:=som (profitOf events),courierAmount:=som (order.totalPrice - courierShare),
     branchAmount:=som (order.totalPrice - courierShare - branchShare),
     marketAmount:=som (net (sellLegs events) order.marketId .forMarket)}
def SaleAgrees (lookups : Lookups) (requester : Requester) (order : Order) (sold : OrderRow) (events : List OrderEvent) : Prop :=
  ∃ courierShare branchShare settlement,sold.order.courierShare = some courierShare ∧ sold.order.branchShare = some branchShare ∧
    sold.settlement = some settlement ∧ RecordsAgree lookups requester order courierShare branchShare settlement events

-- The row has no tariff snapshot of an earlier sale, or the market's tariff is still that one.
def SnapshotLive (lookups : Lookups) (order : Order) : Prop := ∀ snapshot,order.marketTariff = some snapshot → snapshot = liveTariff lookups order

theorem round2_som (tiyin : Int) : round2 (som tiyin) = som tiyin := by
  have whole : (som tiyin * 100 + 1/2 : Rat) = tiyin + 1/2 := by
    unfold som
    ring
  have half : ⌊(1/2 : Rat)⌋ = 0 := by norm_num
  rw [round2,mathRound,whole,Int.floor_intCast_add,half,Int.add_zero,som]
theorem som_sub (left right : Int) : som left - som right = som (left - right) := by
  unfold som
  push_cast
  ring
theorem som_injective {left right : Int} (same : som left = som right) : left = right := by
  unfold som at same
  have whole : (left : Rat) = right := by linarith
  exact_mod_cast whole
-- In whole tiyin nothing is rounded.
theorem computeSaleLegs_whole (total marketTariff courierShare branchShare : Int) :
    computeSaleLegs ⟨som total,som marketTariff,som courierShare,som branchShare⟩ =
      {marketReceivable:=som (total - marketTariff),courierKept:=som courierShare,branchKept:=som branchShare,
       hqProfit:=som (computeSellProfit marketTariff courierShare branchShare),courierAmount:=som (total - courierShare),
       branchAmount:=som (total - courierShare - branchShare),marketAmount:=som (total - marketTariff)} := by
  simp only [computeSaleLegs,som_sub,round2_som,computeSellProfit]

theorem profitOf_append (left right : List OrderEvent) : profitOf (left ++ right) = profitOf left + profitOf right := by
  simp [profitOf]
theorem legs_profit (legs : List BalanceLeg) : profitOf (legs.map .balance) = 0 := by
  induction legs with
  | nil => rfl
  | cons leg rest ih => simpa [profitOf,OrderEvent.profit] using ih
theorem record_profit (id marketId : Nat) (text : String) (extraCost : Int) :
    profitOf (extraCostRecord id marketId .sellExtraCost text extraCost) = 0 := by
  unfold extraCostRecord
  split
  · rfl
  · rfl
-- The profit of a sale is taken from the row's columns.
theorem status_profit (id : Nat) {before after : Order} (waiting : before.status = .waiting) (sold : isSold after.status = true) :
    profitOf (statusEvents id before after) =
      computeSellProfit (after.marketTariff.getD 0) ((after.courierShare.or after.courierTariff).getD 0) (after.branchShare.getD 0) := by
  have entered : before.status ≠ after.status := by
    rw [waiting]
    intro same
    rw [←same] at sold
    cases sold
  have unsold : isSold before.status = false := by
    rw [waiting]
    rfl
  unfold statusEvents financeEvents
  rw [if_neg entered,sold,unsold]
  simp only [Bool.not_false,Bool.and_self,if_true,profitOf_append]
  refine (congrArg₂ (· + ·) ?_ ?_).trans (Int.zero_add _)
  · cases after.operatorId with
    | none => rfl
    | some operatorId => rfl
  · split
    · simp [profitOf,OrderEvent.profit]
    · rename_i zero
      exact (not_not.mp zero).symm

section Legs
variable {leg : BalanceLeg} {marketId owner : Nat} {courier branch : Option Nat} {marketAmount courierAmount branchAmount : Int}

theorem cod_courier : net (codLegs leg marketId (some owner) branch marketAmount courierAmount branchAmount) owner .forCourier = courierAmount := by
  rw [net_bookings,codLegs_booking,codBookings,List.map_append,List.map_append,List.sum_append,List.sum_append,posting_effect]
  cases branch with
  | none => simp [posting_effect]
  | some other => simp [posting_effect]
theorem cod_branch : net (codLegs leg marketId courier (some owner) marketAmount courierAmount branchAmount) owner .branch = branchAmount := by
  rw [net_bookings,codLegs_booking,codBookings,List.map_append,List.map_append,List.sum_append,List.sum_append,posting_effect]
  cases courier with
  | none => simp [posting_effect]
  | some other => simp [posting_effect]

end Legs

theorem sale_sellLegs {id : Nat} {terms : SaleTerms} {before after : Order} :
    sellLegs ((salePlan lookups requester id order requestId courierId parties terms kind comment files paid soldAt).events ++
      statusEvents id before after) =
    (salePlan lookups requester id order requestId courierId parties terms kind comment files paid soldAt).cod := by
  rw [sellLegs,legsOf_append,legsOf_status,List.append_nil,legsOf_sale,SalePlan.legs,List.filter_append]
  have price : ∀ leg ∈ (salePlan lookups requester id order requestId courierId parties terms kind comment files paid soldAt).cod,
      (leg.sourceType == .sell) = true := by
    intro leg member
    simp [(codLegs_of member).source,saleLeg]
  have extra : ∀ leg ∈ (salePlan lookups requester id order requestId courierId parties terms kind comment files paid soldAt).extra,
      ¬(leg.sourceType == .sell) = true := by
    intro leg member
    simp [(extraCostLegs_of member).source,saleLeg]
  rw [List.filter_eq_self.mpr price,List.filter_eq_nil_iff.mpr extra,List.append_nil]

theorem sale_profit {id : Nat} {terms : SaleTerms} (waiting : stored.status = .waiting)
    (passed : updateOrder lookups requesterId
      (salePlan lookups requester id order requestId courierId parties terms kind comment files paid soldAt).update stored = .ok updated) :
    profitOf ((salePlan lookups requester id order requestId courierId parties terms kind comment files paid soldAt).events ++
      statusEvents id stored updated) =
      computeSellProfit (order.marketTariff.getD terms.marketTariff) terms.courierShare terms.branchShare := by
  have assigned := (updateOrder_parts passed).1.trans (updatedOrder_plain lookups requesterId stored rfl)
  have sold : isSold updated.status = true := by
    rw [assigned]
    exact saleStatus_sold _ _
  rw [profitOf_append,SalePlan.events,profitOf_append,legs_profit,status_profit id waiting sold,assigned]
  simp only [salePlan,record_profit]
  simp [saleUpdate,UpdateDto.assign]

theorem snapshotLive_iff (lookups : Lookups) (order : Order) :
    SnapshotLive lookups order ↔ order.marketTariff.getD (liveTariff lookups order) = liveTariff lookups order := by
  unfold SnapshotLive
  cases order.marketTariff with
  | none => simp
  | some snapshot => simp

-- Only the profit looks at the snapshot.
theorem records_exact {id : Nat} {dto : SellDto} {terms : SaleTerms} {plan : SalePlan} {updated : Order} (waiting : stored.status = .waiting)
    (resolved : resolveActorCourierId requester order (order.postId.bind lookups.posts) = .ok courierId)
    (acting : saleParties lookups requester order courierId = .ok parties) (settled : terms = sellTerms lookups requester order parties dto)
    (planned : plan = salePlan lookups requester id order requestId courierId parties terms kind comment files paid soldAt)
    (passed : updateOrder lookups requesterId plan.update stored = .ok updated) :
    RecordsAgree lookups requester order terms.courierShare terms.branchShare plan.settlement
      (plan.events ++ statusEvents id stored updated) ↔ SnapshotLive lookups order := by
  have live : terms.marketTariff = liveTariff lookups order := by
    simp [settled,liveTariff,(saleParties_parts acting).1,sellTerms,saleTerms]
  have price : terms.price = order.totalPrice := by rw [settled]; rfl
  have legs : sellLegs (plan.events ++ statusEvents id stored updated) = plan.cod := by
    rw [planned]
    exact sale_sellLegs
  have profit : profitOf (plan.events ++ statusEvents id stored updated) =
      computeSellProfit (order.marketTariff.getD terms.marketTariff) terms.courierShare terms.branchShare := by
    rw [planned] at passed ⊢
    exact sale_profit waiting passed
  have market : net plan.cod order.marketId .forMarket = order.totalPrice - terms.marketTariff := by
    rw [planned,←price]
    exact (cod_market _ _ _ _ _ _ _ _).trans (if_pos rfl)
  have courier : ∀ courier,partCourier lookups requester order = some courier →
      net plan.cod courier .forCourier = order.totalPrice - terms.courierShare := by
    intro courier takes
    rw [planned,←price,salePlan,parties_courier resolved acting,takes]
    exact cod_courier
  have branch : ∀ branch,partBranch lookups order = some branch →
      net plan.cod branch .branch = order.totalPrice - terms.courierShare - terms.branchShare := by
    intro branch takes
    have same : terms.branch = some branch := by rw [settled]; exact takes
    rw [planned,←price,salePlan,same]
    exact cod_branch
  rw [snapshotLive_iff,←live]
  constructor
  · intro agree
    have conserved := agree.conserved
    rw [legs,market,profit,computeSellProfit] at conserved
    omega
  · intro same
    rw [same] at profit
    refine ⟨?_,?_,?_,?_,?_⟩
    · rw [legs,market,profit,computeSellProfit]
      omega
    · rw [legs]
      exact courier
    · rw [legs]
      exact branch
    · rw [legs,market,planned,←price]
      refine ⟨?_,Int.max_eq_left (Int.le_max_right _ _),Int.max_eq_left (Int.le_max_right _ _)⟩
      exact Int.max_eq_left (Int.le_max_right _ _)
    · rw [legs,market,profit,←live]
      exact computeSaleLegs_whole _ _ _ _

-- The shares a sale leaves on its row.
theorem sold_shares {id : Nat} {terms : SaleTerms} {plan : SalePlan} {stored : OrderRow}
    (planned : plan = salePlan lookups requester id order requestId courierId parties terms kind comment files paid soldAt)
    (passed : updateOrder lookups requesterId plan.update stored.order = .ok updated) (now : Nat) :
    (soldRow now updated plan.settlement stored).order.courierShare = some terms.courierShare ∧
    (soldRow now updated plan.settlement stored).order.branchShare = some terms.branchShare := by
  have plain : plan.update.recalculatesHolder = false := by
    rw [planned]
    rfl
  have assigned := (updateOrder_parts passed).1.trans (updatedOrder_plain lookups requesterId stored.order plain)
  obtain ⟨moment,saved⟩ := saveOrder_parts now updated stored.order
  simp only [soldRow,saveRow]
  rw [saved,assigned,planned]
  exact ⟨rfl,rfl⟩

-- Every sale that commits, whatever else runs beside it.
theorem sale_agrees_exact {table : Table OrderRow} (keyed : table.Keyed) (below : ∀ key ∈ table.map (·.1),key < nextId)
    (calls : List Call) (turns : List Turn) {commit : OrderCommit} (member : commit ∈ (serve table nextId calls turns).log) {id : Nat}
    (sale : commit.note.call = .sell lookups requester id dto requestId) :
    ∃ order sold,commit.note.loaded = some order ∧ commit.after.row id = some sold ∧
      (SaleAgrees lookups requester order sold (commit.entries.map (·.2)) ↔ SnapshotLive lookups order) := by
  obtain ⟨-,made,sees⟩ := serve_logged keyed below member
  obtain ⟨who,note,held,before,writes,entries⟩ := commit
  cases made with
  | @sell _ _ loaded _ _ plan stored updated _ planned locked waiting passed =>
    cases sale
    have here := locks_row locked sees
    refine ⟨loaded,soldRow lookups.now updated plan.settlement stored,rfl,update_row_here before here _,?_⟩
    obtain ⟨-,courierId,parties,comment,files,paid,resolved,acting,same⟩ := sellPlan_parts planned
    obtain ⟨courierShare,branchShare⟩ := sold_shares same passed lookups.now
    have exact := records_exact waiting resolved acting rfl same passed
    rw [legsOf_own]
    constructor
    · rintro ⟨kept,keptBranch,settlement,here1,here2,here3,agree⟩
      cases courierShare.symm.trans here1
      cases branchShare.symm.trans here2
      cases here3
      exact exact.mp agree
    · intro live
      exact ⟨_,_,_,courierShare,branchShare,rfl,exact.mpr live⟩
  | _ => cases sale

def saleCall (marketTariff : Int) (now : Nat) (requestId : String) : Call :=
  .sell (sampleLookups marketTariff now) sampleCourier 11 {} (some requestId)
def firstSaleLog : List OrderCommit := (serve sampleTable 12 [saleCall 3000000 1000 "a"] (List.replicate 4 (.step 0 0))).log

theorem sale_agrees_first : ∃ commit ∈ firstSaleLog,∃ order sold,commit.note.loaded = some order ∧ commit.after.row 11 = some sold ∧
    SaleAgrees (sampleLookups 3000000 1000) sampleCourier order sold (commit.entries.map (·.2)) := by
  obtain ⟨commit,member⟩ := List.exists_mem_of_length_pos (show 0 < firstSaleLog.length by decide)
  have called : commit.note.call = saleCall 3000000 1000 "a" := by
    simpa using (serve_logged (by decide) (by decide) member).1
  obtain ⟨order,sold,loaded,after,exact⟩ := sale_agrees_exact (by decide) (by decide) _ _ member called
  have fresh : ∀ commit ∈ firstSaleLog,(commit.note.loaded.bind Order.marketTariff) = none := by decide
  refine ⟨commit,member,order,sold,loaded,after,exact.mpr fun snapshot here => ?_⟩
  have none := fresh commit member
  rw [loaded,Option.bind_some,here] at none
  cases none

-- Sold, rolled back and, at a higher tariff, sold again: the legs take the new tariff, the profit the old one.
def twoCycles : List Call :=
  [saleCall 3000000 1000 "a",.rollback (sampleLookups 3000000 900000) sampleCourier 11 none (some "b"),saleCall 3500000 1000000 "c"]
def twoCyclesLog : List OrderCommit :=
  (serve sampleTable 12 twoCycles (List.replicate 4 (.step 0 0) ++ List.replicate 6 (.step 1 0) ++ List.replicate 4 (.step 2 0))).log
def recorded (order : Order) (sold : OrderRow) (events : List OrderEvent) : Int :=
  net (sellLegs events) order.marketId .forMarket + sold.order.courierShare.getD 0 + sold.order.branchShare.getD 0 + profitOf events

theorem agrees_recorded (agrees : SaleAgrees lookups requester order sold events) : recorded order sold events = order.totalPrice := by
  obtain ⟨courierShare,branchShare,settlement,courier,branch,-,agree⟩ := agrees
  rw [recorded,courier,branch]
  exact agree.conserved

def soldAt (now : Nat) (commit : OrderCommit) : Bool :=
  match commit.note.call with
  | .sell lookups _ _ _ _ => lookups.now == now
  | _ => false
def recordedIn (commit : OrderCommit) : Option (Int × Int) := do
  let order ← commit.note.loaded
  let sold ← Table.row commit.after 11
  return (order.totalPrice,recorded order sold (commit.entries.map (·.2)))

theorem second_sale_leaks : ∃ commit order sold,commit ∈ twoCyclesLog ∧ commit.note.call = saleCall 3500000 1000000 "c" ∧
    commit.note.loaded = some order ∧ Table.row commit.after 11 = some sold ∧ order.totalPrice = 10000000 ∧
    recorded order sold (commit.entries.map (·.2)) = 9500000 ∧
    ¬SaleAgrees (sampleLookups 3500000 1000000) sampleCourier order sold (commit.entries.map (·.2)) := by
  have found : ∃ commit ∈ twoCyclesLog,soldAt 1000000 commit = true ∧ recordedIn commit = some (10000000,9500000) := by decide +kernel
  obtain ⟨commit,member,second,records⟩ := found
  obtain ⟨order,loaded,records⟩ := Option.bind_eq_some_iff.mp records
  obtain ⟨sold,after,records⟩ := Option.bind_eq_some_iff.mp records
  obtain ⟨price,sum⟩ := Prod.mk.inj (Option.some.inj records)
  refine ⟨commit,order,sold,member,?_,loaded,after,price,sum,?_⟩
  · have listed := (serve_logged (by decide) (by decide) member).1
    simp only [twoCycles,List.mem_cons,List.not_mem_nil,or_false] at listed
    rcases listed with call | call | call
    · rw [soldAt,call] at second
      cases second
    · rw [soldAt,call] at second
      cases second
    · exact call
  · intro agrees
    have balanced := agrees_recorded agrees
    rw [sum,price] at balanced
    cases balanced

end Elchi.Orders
