import Elchi.LegKeys
import Elchi.PaymentRuns
import Elchi.Reversal
namespace Elchi
open RowLock Finance Orders

def legJob (now : Nat) (leg : BalanceLeg) : Job where
  request := updateBalance now leg.dto
  moves := [⟨leg.userId,leg.cashboxType,leg.signed⟩]
  safe := by
    have signed : leg.signed = leg.dto.leg.signed := by
      cases operation : leg.operationType <;> simp [BalanceLeg.signed,BalanceLeg.dto,UpdateCashboxBalanceDto.leg,Leg.signed,sign,operation]
    rw [signed]
    exact updateBalance_shifts now ⟨rfl,rfl,rfl⟩
def courierJob (now : Nat) (data : CourierPayment) (permitted : data.ToMainOrBranch) : Job :=
  ⟨paymentsFromCourier now data,data.moves,paymentsFromCourier_safe now permitted⟩
def branchJob (now : Nat) (data : BranchPayment) : Job := ⟨paymentFromBranchToMain now data,data.moves,paymentFromBranchToMain_safe now data⟩
def marketJob (now : Nat) (data : MarketPayment) : Job := ⟨paymentsToMarket now data,data.moves,paymentsToMarket_safe now data⟩

-- The payments of exactly what the settlement row of a sale says is owed, courier to branch,
-- branch to MAIN and MAIN to market.
structure ExactPayments (settlement : OrderSettlement) (marketId courierId branchId : Nat) where
  fromCourier : CourierPayment
  fromBranch : BranchPayment
  toMarket : MarketPayment
  courierPays : fromCourier.courierId = courierId ∧ fromCourier.amount = settlement.courierAmount ∧
    fromCourier.receiver = branchId ∧ fromCourier.receiverType = .branch ∧ fromCourier.paymentMethod ≠ some .clickToMarket
  branchPays : fromBranch.branchId = branchId ∧ fromBranch.amount = settlement.branchAmount
  marketPaid : toMarket.marketId = marketId ∧ toMarket.amount = settlement.marketAmount

-- What finance is asked to do for one sale; where nothing is owed there is no payment.
def saleJobs (legs : List BalanceLeg) (payments : ExactPayments settlement marketId courierId branchId) (now : Nat → Nat) : List Job :=
  (legs.zipIdx.map fun entry => legJob (now entry.2) entry.1) ++
  ((if 0 < settlement.courierAmount then
      [courierJob (now legs.length) payments.fromCourier (.inr payments.courierPays.2.2.2.1)] else []) ++
   (if 0 < settlement.branchAmount then [branchJob (now (legs.length+1)) payments.fromBranch] else []) ++
   if 0 < settlement.marketAmount then [marketJob (now (legs.length+2)) payments.toMarket] else [])

structure Conserved (before after : Table Row) (marketId courierId branchId : Nat) (profit : Int) : Prop where
  courier : balanceOf after courierId .forCourier = balanceOf before courierId .forCourier
  branch : balanceOf after branchId .branch = balanceOf before branchId .branch
  market : balanceOf after marketId .forMarket = balanceOf before marketId .forMarket
  main : balanceOf after mainCashboxUserId .main = balanceOf before mainCashboxUserId .main + profit

theorem legJobs_moves (legs : List BalanceLeg) (now : Nat → Nat) (start : Nat) (user : Nat) (type : CashboxType) :
    moved (((legs.zipIdx start).map fun entry => legJob (now entry.2) entry.1).flatMap (·.moves)) user type =
      ((legs.map BalanceLeg.booking).map fun booking => (⟨booking.1,booking.2.1,booking.2.2⟩ : Move).on user type).sum := by
  induction legs generalizing start with
  | nil => rfl
  | cons leg rest ih =>
    simp only [List.zipIdx_cons,List.map_cons,List.flatMap_cons,moved_append,ih,List.sum_cons]
    simp [moved,legJob,BalanceLeg.booking]

theorem posting_on (userId : Nat) (type : CashboxType) (signed : Int) (user : Nat) (wanted : CashboxType) :
    ((posting userId type signed).map fun booking => (⟨booking.1,booking.2.1,booking.2.2⟩ : Move).on user wanted).sum =
      (⟨userId,type,signed⟩ : Move).on user wanted := by
  unfold posting
  split
  · rename_i zero
    simp [Move.on,zero]
  · simp

theorem plain_courier_moves {data : CourierPayment} (plain : data.paymentMethod ≠ some .clickToMarket) :
    data.moves = [⟨data.courierId,.forCourier,-data.amount⟩,⟨data.receiver,data.receiverType,data.amount⟩] := by
  unfold CourierPayment.moves
  split
  · rename_i click _
    exact absurd click plain
  · rfl

-- Where nothing is owed a payment would move nothing either.
theorem owed_moves {amount : Int} (owed : 0 ≤ amount) {job : Job} {user : Nat} {type : CashboxType}
    (none : amount = 0 → moved job.moves user type = 0) :
    moved ((if 0 < amount then [job] else []).flatMap (·.moves)) user type = moved job.moves user type := by
  split
  · simp
  · rw [none (by omega)]
    rfl

theorem saleJobs_moved {settlement : OrderSettlement} {legs : List BalanceLeg} {marketId courierId branchId : Nat}
    (booked : legs.map BalanceLeg.booking = codBookings marketId (some courierId) (some branchId) market courier branch)
    (payments : ExactPayments settlement marketId courierId branchId) (now : Nat → Nat) (owedCourier : 0 ≤ settlement.courierAmount)
    (owedBranch : 0 ≤ settlement.branchAmount) (owedMarket : 0 ≤ settlement.marketAmount) (user : Nat) (type : CashboxType) :
    moved ((saleJobs legs payments now).flatMap (·.moves)) user type = moved
      [⟨marketId,.forMarket,market⟩,⟨courierId,.forCourier,courier⟩,⟨branchId,.branch,branch⟩,
       ⟨courierId,.forCourier,-settlement.courierAmount⟩,⟨branchId,.branch,settlement.courierAmount⟩,
       ⟨branchId,.branch,-settlement.branchAmount⟩,⟨mainCashboxUserId,.main,settlement.branchAmount⟩,
       ⟨mainCashboxUserId,.main,-settlement.marketAmount⟩,⟨marketId,.forMarket,-settlement.marketAmount⟩] user type := by
  obtain ⟨fromCourier,fromBranch,toMarket,⟨payer,paid,receiver,receiverType,plain⟩,⟨branchPayer,branchPaid⟩,marketNamed,marketPaid⟩ := payments
  have legMoves := legJobs_moves legs now 0 user type
  rw [booked,codBookings,List.map_append,List.map_append,List.sum_append,List.sum_append] at legMoves
  simp only [Option.elim_some,posting_on] at legMoves
  have courierMoves := plain_courier_moves plain
  rw [payer,paid,receiver,receiverType] at courierMoves
  unfold saleJobs
  rw [List.flatMap_append,moved_append,legMoves,List.flatMap_append,List.flatMap_append,moved_append,moved_append,
    owed_moves owedCourier,owed_moves owedBranch,owed_moves owedMarket]
  · simp only [courierJob,branchJob,marketJob,courierMoves,BranchPayment.moves,MarketPayment.moves,branchPayer,branchPaid,marketNamed,
      marketPaid,moved,List.map_cons,List.map_nil,List.sum_cons,List.sum_nil]
    omega
  · intro zero
    simp [marketJob,MarketPayment.moves,marketPaid,zero,moved,Move.on]
  · intro zero
    simp [branchJob,BranchPayment.moves,branchPaid,zero,moved,Move.on]
  · intro zero
    simp [courierJob,courierMoves,zero,moved,Move.on]

-- The branch holds its share of the sale twice, once from the sale's own event and once as the
-- receiver of the courier's payment, so only a sale that leaves nothing to hand over comes out even.
theorem conserved_exact {price marketTariff courierShare branchShare : Int} (kept : 0 ≤ branchShare) :
    ((price - courierShare) - max (price - courierShare) 0 = 0 ∧
      (price - courierShare - branchShare) + max (price - courierShare) 0 - max (price - courierShare - branchShare) 0 = 0 ∧
      (price - marketTariff) - max (price - marketTariff) 0 = 0 ∧
      max (price - courierShare - branchShare) 0 - max (price - marketTariff) 0 = marketTariff - courierShare - branchShare) ↔
    courierShare = price ∧ branchShare = 0 ∧ marketTariff ≤ price := by
  omega

theorem resolveBranchShare_nonneg (lookups : Lookups) (branchId : Option Nat) : 0 ≤ resolveBranchShare lookups branchId := by
  unfold resolveBranchShare
  split
  · split
    · dsimp only
      split
      · omega
      · exact Int.le_refl 0
    · exact Int.le_refl 0
  · exact Int.le_refl 0

theorem settled_conserved_exact {settlement : OrderSettlement} {legs : List BalanceLeg} {marketId courierId branchId : Nat}
    {price marketTariff courierShare branchShare : Int} (kept : 0 ≤ branchShare)
    (booked : legs.map BalanceLeg.booking = codBookings marketId (some courierId) (some branchId) (price - marketTariff)
      (price - courierShare) (price - courierShare - branchShare))
    (owed : settlement.courierAmount = max (price - courierShare) 0 ∧ settlement.branchAmount = max (price - courierShare - branchShare) 0 ∧
      settlement.marketAmount = max (price - marketTariff) 0)
    (books : Books) (payments : ExactPayments settlement marketId courierId branchId) (now : Nat → Nat) (turns : List Turn)
    (all : AllApplied (saleJobs legs payments now) (settle books (saleJobs legs payments now) turns)) :
    Conserved books.table (settle books (saleJobs legs payments now) turns).table marketId courierId branchId
      (computeSellProfit marketTariff courierShare branchShare) ↔
    courierShare = price ∧ branchShare = 0 ∧ marketTariff ≤ price := by
  obtain ⟨owedCourier,owedBranch,owedMarket⟩ := owed
  have balances := settle_balances books _ turns all
  have total := saleJobs_moved booked payments now (by omega) (by omega) (by omega)
  simp only [total] at balances
  simp only [moved,List.map_cons,List.map_nil,List.sum_cons,List.sum_nil,owedCourier,owedBranch,owedMarket,Move.on] at balances
  have courier := balances courierId .forCourier
  have branch := balances branchId .branch
  have market := balances marketId .forMarket
  have main := balances mainCashboxUserId .main
  simp only [reduceCtorEq,and_false,and_self,if_true,if_false] at courier branch market main
  rw [←conserved_exact kept]
  constructor
  · rintro ⟨sameCourier,sameBranch,sameMarket,grownMain⟩
    unfold computeSellProfit at grownMain
    omega
  · rintro ⟨sameCourier,sameBranch,sameMarket,grownMain⟩
    refine ⟨?_,?_,?_,?_⟩
    · omega
    · omega
    · omega
    · unfold computeSellProfit
      omega

theorem sale_conserved_exact {id courierId branchId : Nat} (planned : sellPlan lookups requester id order dto requestId = .ok plan)
    (byCourier : plan.courier = some courierId) (atBranch : plan.branch = some branchId) (noExtra : dto.extraCost.getD 0 ≤ 0)
    (books : Books) (payments : ExactPayments plan.settlement order.marketId courierId branchId) (now : Nat → Nat) (turns : List Turn)
    (all : AllApplied (saleJobs plan.legs payments now) (settle books (saleJobs plan.legs payments now) turns)) :
    ∃ market courier,lookups.markets order.marketId = some market ∧ lookups.couriers courierId = some courier ∧
      (Conserved books.table (settle books (saleJobs plan.legs payments now) turns).table order.marketId courierId branchId
        (computeSellProfit (market.tariff order.whereDeliver) (resolveCourierShare courier (courier.tariff order.whereDeliver))
          (resolveBranchShare lookups (some branchId))) ↔
      resolveCourierShare courier (courier.tariff order.whereDeliver) = order.totalPrice ∧
        resolveBranchShare lookups (some branchId) = 0 ∧ market.tariff order.whereDeliver ≤ order.totalPrice) := by
  obtain ⟨-,actor,parties,_,_,_,-,found,same⟩ := sellPlan_parts planned
  obtain ⟨knownMarket,courierNamed,-,acting⟩ := saleParties_parts found
  have partiesCourier : parties.courier = some courierId := by
    rw [same] at byCourier
    exact byCourier
  have notManager : requester.isManagerRequester = false := by
    cases manager : requester.isManagerRequester with
    | false => rfl
    | true =>
      rw [manager,if_pos rfl,partiesCourier] at courierNamed
      cases courierNamed
  rw [notManager,if_neg (by simp)] at courierNamed acting
  cases courierNamed.symm.trans partiesCourier
  have cashbox : branchCashboxOf lookups (resolveSettlementBranchId lookups order) = some branchId := by
    rw [same] at atBranch
    exact atBranch
  have branchNamed : resolveSettlementBranchId lookups order = some branchId := Option.eq_some_of_filter_eq_some cashbox
  have quiet : (sellTerms lookups requester order parties dto).extraCost ≤ 0 := by
    simp only [sellTerms,saleTerms]
    omega
  have booked := congrArg (fun sale => sale.legs.map BalanceLeg.booking) same
  rw [salePlan_booking quiet] at booked
  simp only [sellTerms,saleTerms,SaleTerms.branchNet,resolveSaleActorShare,notManager,Bool.false_eq_true,if_false,branchNamed,
    partiesCourier] at booked
  rw [branchNamed] at cashbox
  rw [cashbox] at booked
  refine ⟨parties.market,parties.financialActor,knownMarket,acting,?_⟩
  refine settled_conserved_exact (resolveBranchShare_nonneg _ _) booked ?_ books payments now turns all
  rw [same]
  simp only [salePlan,saleSettlement,sellTerms,saleTerms,SaleTerms.branchNet,SaleTerms.net,resolveSaleActorShare,notManager,branchNamed]
  refine ⟨?_,?_,?_⟩
  · simp
  · simp
  · simp

def answeredAll (jobs : List Job) (m : Machine Row CashboxHistory Movement (Except RpcError Finance.Answer)) : Bool :=
  (List.range jobs.length).all fun who => match m.sessions[who]? with
    | some ⟨.done (.ok done),_⟩ => !done.idempotent
    | _ => false

theorem answeredAll_applied {m : Machine Row CashboxHistory Movement (Except RpcError Finance.Answer)} (answered : answeredAll jobs m = true) :
    AllApplied jobs m := by
  intro who inside
  have own := List.all_eq_true.mp answered who (List.mem_range.mpr inside)
  split at own
  · rename_i done held found
    exact ⟨done,held,found,by simpa using own⟩
  · cases own

-- Cashboxes of the market, the courier and the branch, and 100 000 soum in MAIN.
def openAll : List Finance.Call :=
  [.createCashbox ⟨1,.forMarket,none,none,none⟩,.createCashbox ⟨7,.forCourier,none,none,none⟩,
   .createCashbox ⟨3,.branch,none,none,none⟩,.createCashbox ⟨0,.main,none,none,none⟩,.fillTheCashbox 5 ⟨0,10000000,none,none,some "f"⟩]
def fourCashboxes : Books :=
  Finance.reached (show ∀ call ∈ openAll,call.Permitted by decide) ((List.range 5).flatMap fun who => List.replicate 4 (.step who 0))

def saleAt (courierTariff : Int) : Except RpcError SalePlan :=
  sellPlan {sampleLookups 3000000 1000 with couriers:=fun _ => some ⟨none,some courierTariff,none⟩} sampleCourier 11 sampleOrder {} (some "a")
theorem planned_get {plan : Except RpcError SalePlan} (ok : plan.toOption.isSome = true) : plan = .ok (plan.toOption.get ok) := by
  cases plan with
  | error error => cases ok
  | ok sale => rfl

def paymentsOf (settlement : OrderSettlement) : ExactPayments settlement 1 7 3 :=
  ⟨⟨7,settlement.courierAmount,none,none,none,some 3,some .branch,some "p1"⟩,⟨3,settlement.branchAmount,none,none,some "p2"⟩,
   ⟨1,settlement.marketAmount,none,none,some "p3"⟩,⟨rfl,rfl,rfl,rfl,by simp⟩,⟨rfl,rfl⟩,⟨rfl,rfl⟩⟩

-- The courier keeps 15 000 of 100 000 soum.
def branchSale : SalePlan := (saleAt 1500000).toOption.get (by decide +kernel)
def branchSaleJobs : List Job := saleJobs branchSale.legs (paymentsOf branchSale.settlement) fun seq => 2000 + seq
def jobTurns : List Turn := (List.range 6).flatMap fun who => List.replicate 5 (.step who 0)

theorem branch_credited_twice :
    saleAt 1500000 = .ok branchSale ∧ branchSale.courier = some 7 ∧ branchSale.branch = some 3 ∧
    AllApplied branchSaleJobs (settle fourCashboxes branchSaleJobs jobTurns) ∧
    balanceOf fourCashboxes.table 3 .branch = 0 ∧
    balanceOf (settle fourCashboxes branchSaleJobs jobTurns).table 3 .branch = 8500000 ∧
    ¬Conserved fourCashboxes.table (settle fourCashboxes branchSaleJobs jobTurns).table 1 7 3 (computeSellProfit 3000000 1500000 0) := by
  have before : balanceOf fourCashboxes.table 3 .branch = 0 := by decide
  have after : balanceOf (settle fourCashboxes branchSaleJobs jobTurns).table 3 .branch = 8500000 := by decide
  refine ⟨planned_get _,by decide,by decide,answeredAll_applied (by decide),before,after,?_⟩
  intro conserved
  have same := conserved.branch
  rw [before,after] at same
  cases same

-- The courier keeps the whole price.
def keptSale : SalePlan := (saleAt 10000000).toOption.get (by decide +kernel)
def keptSaleJobs : List Job := saleJobs keptSale.legs (paymentsOf keptSale.settlement) fun seq => 2000 + seq

theorem sale_conserved_kept_price : keptSaleJobs.length = 2 ∧
    Conserved fourCashboxes.table (settle fourCashboxes keptSaleJobs jobTurns).table 1 7 3 (computeSellProfit 3000000 10000000 0) := by
  obtain ⟨market,courier,known,acting,exact⟩ := sale_conserved_exact (planned_get (by decide)) (show keptSale.courier = some 7 by decide)
    (show keptSale.branch = some 3 by decide) (by decide) fourCashboxes (paymentsOf keptSale.settlement) (fun seq => 2000 + seq) jobTurns
    (answeredAll_applied (by decide +kernel))
  cases known
  cases acting
  exact ⟨by decide,exact.mpr (by decide)⟩

end Elchi
