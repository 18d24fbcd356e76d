import Mathlib.Algebra.BigOperators.Group.List.Basic
import Elchi.ExtraCosts
import Elchi.LegKeys
import Elchi.PaidAmounts
import Elchi.Reversal
namespace Elchi.Orders
open RowLock

-- What a sale computes its automatic payment from: the market's balance is finance's answer
-- before the transaction.
structure SaleFigures where
  marketId : Nat
  price : Int
  marketTariff : Int
  extraCost : Int
  requestedPaid : Int
  marketBalance : Int
deriving DecidableEq, Repr

namespace SaleFigures
def net (figures : SaleFigures) : Int := max (figures.price - figures.marketTariff) 0
def currentPaid (figures : SaleFigures) : Int := min (max figures.requestedPaid 0) figures.net
def remainingBeforeDebt (figures : SaleFigures) : Int := figures.net - figures.currentPaid
def debtBeforeSale (figures : SaleFigures) : Int := if figures.marketBalance < 0 then -figures.marketBalance else 0
def autoPay (figures : SaleFigures) : Int := min figures.remainingBeforeDebt figures.debtBeforeSale
-- What the sale's legs move on the market's cashbox.
def income (figures : SaleFigures) : Int := figures.price - figures.marketTariff - figures.extraCost
end SaleFigures

def figuresOf (note : Note) : Option SaleFigures :=
  match note.call,note.loaded with
  | .sell lookups _ _ dto _,some order => do
    let market ← lookups.markets order.marketId
    let marketBalance ← lookups.cashboxes order.marketId .forMarket
    return {marketId:=order.marketId,price:=order.totalPrice,marketTariff:=market.tariff order.whereDeliver,
            extraCost:=max (dto.extraCost.getD 0) 0,requestedPaid:=dto.paidAmount.getD order.paidAmount,marketBalance:=marketBalance}
  | .partlySell lookups _ _ dto _ _,some order => do
    let market ← lookups.markets order.marketId
    let marketBalance ← lookups.cashboxes order.marketId .forMarket
    return {marketId:=order.marketId,price:=dto.totalPrice,
            marketTariff:=order.marketTariff.getD (market.tariff order.whereDeliver),extraCost:=max (dto.extraCost.getD 0) 0,
            requestedPaid:=order.paidAmount,marketBalance:=marketBalance}
  | _,_ => none

def Call.isSale : Call → Bool
  | .sell _ _ _ _ _ => true
  | .partlySell _ _ _ _ _ _ => true
  | _ => false
def Call.orderId : Call → Option Nat
  | .sell _ _ id _ _ => some id
  | .partlySell _ _ id _ _ _ => some id
  | _ => none
-- The legs of a commit on the market's cashbox, each an event of its own.
def marketLegs (marketId : Nat) (commit : OrderCommit) : List Int :=
  ((legsOf (commit.entries.map (·.2))).filter fun leg => leg.userId == marketId && leg.cashboxType == .forMarket).map BalanceLeg.signed

-- A session reads the market's balance, a sale commits, or finance applies a leg in flight.
inductive Moment where
  | read (who : Nat)
  | commit (made : OrderCommit)
  | apply (place : Nat)
def Moment.commit? : Moment → Option OrderCommit
  | .commit made => some made
  | _ => none

structure MarketSight where
  balance : Int
  inFlight : List Int
  reading : Nat → Option Int
  autoPaid : Int
def MarketSight.opening (balance : Int) : MarketSight := ⟨balance,[],fun _ => none,0⟩

-- The figures of a sale for this market.
def salesOf (marketId : Nat) (made : OrderCommit) : Option SaleFigures :=
  (figuresOf made.note).filter fun figures => figures.marketId == marketId
-- A sale commits on the balance its session has read.
def MarketSight.step (marketId : Nat) (s : MarketSight) : Moment → Option MarketSight
  | .read who => some {s with reading:=fun other => if other = who then some s.balance else s.reading other}
  | .commit made => match salesOf marketId made with
    | none => some {s with inFlight:=s.inFlight ++ marketLegs marketId made}
    | some figures =>
      if s.reading made.who = some figures.marketBalance then
        some {s with inFlight:=s.inFlight ++ marketLegs marketId made,autoPaid:=s.autoPaid + figures.autoPay}
      else none
  | .apply place => match s.inFlight[place]? with
    | none => none
    | some leg => some {s with balance:=s.balance + leg,inFlight:=s.inFlight.eraseIdx place}
def MarketSight.run (marketId : Nat) (s : MarketSight) (moments : List Moment) : Option MarketSight :=
  moments.foldlM (MarketSight.step marketId) s

-- The debt that is left once every leg in flight is applied.
def debtAt (balance : Int) : Int := max (-balance) 0
def MarketSight.settled (s : MarketSight) : Int := s.balance + s.inFlight.sum
-- What a sale's own legs take off the debt that is left.
def MarketSight.taken (s : MarketSight) (figures : SaleFigures) : Int := debtAt s.settled - debtAt (s.settled + figures.income)
-- They take off what is still to be paid on the order, or the debt that was read.
def Covered (s : MarketSight) (figures : SaleFigures) : Prop :=
  0 ≤ s.taken figures ∧ (figures.price - figures.marketTariff - max figures.requestedPaid 0 ≤ s.taken figures ∨
    -figures.marketBalance ≤ s.taken figures)
instance : Decidable (Covered s figures) := inferInstanceAs (Decidable (_ ∧ (_ ∨ _)))
def AllCovered (marketId : Nat) (s : MarketSight) : List Moment → Prop
  | [] => True
  | moment :: rest => (∀ made ∈ moment.commit?,∀ figures ∈ salesOf marketId made,Covered s figures) ∧
      ∀ next ∈ s.step marketId moment,AllCovered marketId next rest
instance allCoveredDecidable (marketId : Nat) : (s : MarketSight) → (moments : List Moment) → Decidable (AllCovered marketId s moments)
  | _,[] => .isTrue trivial
  | s,moment :: rest =>
    have (next : MarketSight) : Decidable (AllCovered marketId next rest) := allCoveredDecidable marketId next rest
    inferInstanceAs (Decidable ((∀ made ∈ moment.commit?,∀ figures ∈ salesOf marketId made,Covered s figures) ∧
      ∀ next ∈ s.step marketId moment,AllCovered marketId next rest))

theorem saleParties_balance (found : saleParties lookups requester order courierId = .ok parties) :
    lookups.cashboxes order.marketId .forMarket = some parties.marketBalance := by
  unfold saleParties at found
  split at found
  · cases found
  split at found
  · cases found
  split at found
  · cases found
  rename_i marketBalance known
  split at found
  · cases found
    exact known
  · split at found
    · cases found
    · cases found
      exact known

-- A sale plan with the payment it starts from.
theorem sellPlan_sale {id : Nat} (planned : sellPlan lookups requester id order dto requestId = .ok plan) :
    ∃ courierId parties finalComment proofFiles,saleParties lookups requester order courierId = .ok parties ∧
      plan = salePlan lookups requester id order requestId courierId parties (sellTerms lookups requester order parties dto) "sotuvi"
        finalComment proofFiles (min (max (dto.paidAmount.getD order.paidAmount) 0) (sellTerms lookups requester order parties dto).net)
        lookups.now := by
  unfold sellPlan at planned
  split at planned
  · cases planned
  split at planned
  · cases planned
  obtain ⟨courierId,-,rest⟩ := error_bind_parts planned
  obtain ⟨parties,found,rest⟩ := error_bind_parts rest
  obtain ⟨proofFiles,-,rest⟩ := error_bind_parts rest
  dsimp only at rest
  split at rest
  · cases rest
  split at rest
  · cases rest
  exact ⟨courierId,parties,_,proofFiles,found,(Except.ok.inj rest).symm⟩

theorem partlySellPlan_sale {id : Nat} (planned : partlySellPlan lookups requester id row dto requestId token = .ok plan) :
    ∃ courierId parties finalComment proofFiles soldAt,saleParties lookups requester row.order courierId = .ok parties ∧
      plan.toSalePlan = partialSale (salePlan lookups requester id row.order requestId courierId parties
        (partlySellTerms lookups requester row.order parties dto) "qisman sotuvi" finalComment proofFiles
        (min (max row.order.paidAmount 0) (partlySellTerms lookups requester row.order parties dto).net) soldAt) dto.totalPrice := by
  unfold partlySellPlan at planned
  dsimp only at planned
  split at planned
  · cases planned
  split at planned
  · cases planned
  obtain ⟨courierId,-,rest⟩ := error_bind_parts planned
  split at rest
  · cases rest
  split at rest
  · cases rest
  obtain ⟨parties,found,rest⟩ := error_bind_parts rest
  obtain ⟨proofFiles,-,rest⟩ := error_bind_parts rest
  obtain ⟨_,-,rest⟩ := error_bind_parts rest
  split at rest
  · cases rest
  · cases rest
    exact ⟨courierId,parties,_,proofFiles,_,found,rfl⟩

theorem net_bookings (legs : List BalanceLeg) (userId : Nat) (type : CashboxType) :
    net legs userId type = ((legs.map BalanceLeg.booking).map fun booking => effect booking userId type).sum := by
  induction legs with
  | nil => rfl
  | cons leg rest ih => rw [net_cons,ih,List.map_cons,List.map_cons,List.sum_cons]

theorem posting_effect (owner : Nat) (type : CashboxType) (signed : Int) (userId : Nat) (wanted : CashboxType) :
    ((posting owner type signed).map fun booking => effect booking userId wanted).sum =
      if owner = userId ∧ type = wanted then signed else 0 := by
  unfold posting
  split
  · rename_i zero
    simp [zero]
  · simp [effect]

theorem cod_market (leg : BalanceLeg) (marketId : Nat) (courier branch : Option Nat) (marketAmount courierAmount branchAmount : Int)
    (userId : Nat) : net (codLegs leg marketId courier branch marketAmount courierAmount branchAmount) userId .forMarket =
      if marketId = userId then marketAmount else 0 := by
  rw [net_bookings,codLegs_booking,codBookings,List.map_append,List.map_append,List.sum_append,List.sum_append,posting_effect]
  have courierApart : ((courier.elim [] fun owner => posting owner .forCourier courierAmount).map
      fun booking => effect booking userId .forMarket).sum = 0 := by
    cases courier with
    | none => rfl
    | some owner => simp [posting_effect]
  have branchApart : ((branch.elim [] fun owner => posting owner .branch branchAmount).map
      fun booking => effect booking userId .forMarket).sum = 0 := by
    cases branch with
    | none => rfl
    | some owner => simp [posting_effect]
  rw [courierApart,branchApart]
  simp

-- The actor's side of an extra cost is never on a market's cashbox.
theorem extra_market (leg : BalanceLeg) (marketId : Nat) {actor : Option (Nat × CashboxType)} {extraCost : Int} (charged : 0 ≤ extraCost)
    (apart : ∀ expense,actor = some expense → expense.2 ≠ .forMarket) (userId : Nat) :
    net (extraCostLegs leg marketId actor extraCost) userId .forMarket = if marketId = userId then -extraCost else 0 := by
  unfold extraCostLegs
  split
  · rw [net_cons]
    have paid : effect (BalanceLeg.booking {leg with userId:=marketId,cashboxType:=.forMarket,amount:=extraCost,operationType:=.expense})
        userId .forMarket = if marketId = userId then -extraCost else 0 := by
      simp [effect,BalanceLeg.booking,BalanceLeg.signed]
    rw [paid]
    cases actor with
    | none => simp [net]
    | some expense =>
      have other : expense.2 ≠ .forMarket := apart expense rfl
      simp [net,other]
  · have zero : extraCost = 0 := by omega
    simp [net,zero]

theorem saleExpense_apart (requester : Requester) (courierId : Nat) (parties : SaleParties) (terms : SaleTerms) :
    ∀ expense,saleExpense requester courierId parties terms = some expense → expense.2 ≠ .forMarket := by
  intro expense here
  unfold saleExpense at here
  split at here
  · rename_i manager
    obtain ⟨_,-,rfl⟩ := Option.map_eq_some_iff.mp here
    simp [actorExpense,manager]
  · rename_i courier
    obtain ⟨_,-,rfl⟩ := Option.map_eq_some_iff.mp here
    simp [actorExpense,courier]

theorem sale_market {id : Nat} (charged : 0 ≤ terms.extraCost) (userId : Nat) :
    net (salePlan lookups requester id order requestId courierId parties terms kind comment files paid soldAt).legs userId .forMarket =
      if order.marketId = userId then terms.price - terms.marketTariff - terms.extraCost else 0 := by
  rw [SalePlan.legs,net_append]
  simp only [salePlan]
  rw [cod_market,extra_market _ _ charged (saleExpense_apart _ _ _ _)]
  split
  · omega
  · rfl

theorem paidAfter_autoPay (figures : SaleFigures) : paidAfter figures.net figures.currentPaid figures.marketBalance =
    figures.currentPaid + figures.autoPay := by
  simp only [paidAfter,SaleFigures.autoPay,SaleFigures.remainingBeforeDebt,SaleFigures.debtBeforeSale]
  omega

theorem marketLegs_net (userId : Nat) (commit : OrderCommit) :
    (marketLegs userId commit).sum = net (legsOf (commit.entries.map (·.2))) userId .forMarket := rfl

-- What a sale writes on its order and moves on the market's cashbox.
theorem sale_pays {commit : OrderCommit} (made : Transaction commit.held commit.note commit.writes commit.entries)
    (sees : Sees commit.held commit.before) (sale : commit.note.call.isSale = true) : ∃ figures id row,
    figuresOf commit.note = some figures ∧ commit.note.call.orderId = some id ∧ commit.after.row id = some row ∧
    row.order.paidAmount = figures.currentPaid + figures.autoPay ∧
    ∀ userId,(marketLegs userId commit).sum = if figures.marketId = userId then figures.income else 0 := by
  obtain ⟨who,note,held,before,writes,entries⟩ := commit
  cases made with
  | @sell lookups requester loaded dto requestId plan stored updated id planned locked waiting passed =>
    obtain ⟨courierId,parties,_,_,found,rfl⟩ := sellPlan_sale planned
    have market := (saleParties_parts found).1
    have balance := saleParties_balance found
    have here := locks_row locked sees
    refine ⟨⟨loaded.marketId,loaded.totalPrice,parties.market.tariff loaded.whereDeliver,max (dto.extraCost.getD 0) 0,
      dto.paidAmount.getD loaded.paidAmount,parties.marketBalance⟩,id,_,?_,rfl,update_row_here before here _,?_,?_⟩
    · simp [figuresOf,market,balance]
    · rw [←paidAfter_autoPay]
      simp [soldRow,saveRow,(updateOrder_parts passed).1,salePlan,saleUpdate,sellTerms,saleTerms,SaleTerms.net,SaleFigures.net,
        SaleFigures.currentPaid]
    · intro userId
      rw [marketLegs_net,legsOf_own,legsOf_append,legsOf_status,List.append_nil,legsOf_sale]
      exact sale_market (Int.le_max_right _ _) userId
  | @partlySell lookups requester loaded items settlement dto requestId token plan stored updated childId id planned locked waiting passed
      apart childNew =>
    obtain ⟨courierId,parties,_,_,_,found,same⟩ := partlySellPlan_sale planned
    have market := (saleParties_parts found).1
    have balance := saleParties_balance found
    have here := locks_row locked sees
    refine ⟨⟨loaded.marketId,dto.totalPrice,loaded.marketTariff.getD (parties.market.tariff loaded.whereDeliver),
      max (dto.extraCost.getD 0) 0,loaded.paidAmount,parties.marketBalance⟩,id,partlySoldRow lookups.now updated plan stored,?_,rfl,?_,?_,?_⟩
    · simp [figuresOf,market,balance]
    · rw [Commit.after,applyWrites_row,here]
      simp [written_cons,Write.key,Write.result,apart]
    · rw [←paidAfter_autoPay]
      simp [partlySoldRow,(updateOrder_parts passed).1,same,partialSale,salePlan,saleUpdate,partlySellTerms,saleTerms,SaleTerms.net,
        SaleFigures.net,SaleFigures.currentPaid]
    · intro userId
      rw [marketLegs_net,legsOf_own,legsOf_append,legsOf_status,List.append_nil,same,partialSale_events,legsOf_sale]
      exact sale_market (Int.le_max_right _ _) userId
  | _ => cases sale

theorem covered_pays {s : MarketSight} {figures : SaleFigures} (covered : Covered s figures) : figures.autoPay ≤ s.taken figures := by
  obtain ⟨least,rest⟩ := covered
  simp only [SaleFigures.autoPay,SaleFigures.remainingBeforeDebt,SaleFigures.debtBeforeSale,SaleFigures.currentPaid,SaleFigures.net]
  split
  · omega
  · omega

-- The automatic payments and the debt that is left stay within the debt at the start.
def Bounded (debt : Int) (s : MarketSight) : Prop := s.autoPaid + debtAt s.settled ≤ debt

theorem settled_post (s : MarketSight) (legs : List Int) (autoPaid : Int) :
    MarketSight.settled {s with inFlight:=s.inFlight ++ legs,autoPaid:=autoPaid} = s.settled + legs.sum := by
  simp [MarketSight.settled,add_assoc]

theorem step_bounded {s next : MarketSight} {moment : Moment}
    (sale : ∀ made ∈ moment.commit?,∃ figures,figuresOf made.note = some figures ∧
      (marketLegs marketId made).sum = if figures.marketId = marketId then figures.income else 0)
    (covered : ∀ made ∈ moment.commit?,∀ figures ∈ salesOf marketId made,Covered s figures)
    (moved : s.step marketId moment = some next) (bounded : Bounded debt s) : Bounded debt next := by
  cases moment with
  | read who =>
    cases moved
    exact bounded
  | commit made =>
    obtain ⟨figures,known,legs⟩ := sale made rfl
    have mine : salesOf marketId made = if figures.marketId = marketId then some figures else none := by
      simp [salesOf,known,Option.filter]
    simp only [MarketSight.step] at moved
    rw [Bounded] at bounded ⊢
    by_cases here : figures.marketId = marketId
    · rw [if_pos here] at mine legs
      rw [mine] at moved
      dsimp only at moved
      split at moved
      · cases moved
        have paid := covered_pays (covered made rfl figures mine)
        rw [MarketSight.taken] at paid
        rw [settled_post,legs]
        dsimp only
        omega
      · cases moved
    · rw [if_neg here] at mine legs
      rw [mine] at moved
      cases moved
      rw [settled_post s (marketLegs marketId made) s.autoPaid,legs,add_zero]
      exact bounded
  | apply place =>
    simp only [MarketSight.step] at moved
    split at moved
    · cases moved
    · rename_i leg here
      cases moved
      obtain ⟨inside,same⟩ := List.getElem?_eq_some_iff.mp here
      have whole := List.CommMonoid.add_sum_eraseIdx inside
      rw [same] at whole
      have kept : MarketSight.settled {s with balance:=s.balance + leg,inFlight:=s.inFlight.eraseIdx place} = s.settled := by
        simp only [MarketSight.settled]
        omega
      rw [Bounded,kept]
      exact bounded

theorem run_bounded {s final : MarketSight} {moments : List Moment}
    (sale : ∀ made ∈ moments.filterMap Moment.commit?,∃ figures,figuresOf made.note = some figures ∧
      (marketLegs marketId made).sum = if figures.marketId = marketId then figures.income else 0)
    (covered : AllCovered marketId s moments) (ran : s.run marketId moments = some final) (bounded : Bounded debt s) :
    Bounded debt final := by
  induction moments generalizing s with
  | nil =>
    cases ran
    exact bounded
  | cons moment rest ih =>
    obtain ⟨next,moved,ran⟩ := Option.bind_eq_some_iff.mp ran
    obtain ⟨here,later⟩ := covered
    apply ih _ (later next moved) ran
    · exact step_bounded (fun made member => sale made (by simp [Option.mem_def.mp member])) here moved bounded
    · intro made member
      apply sale made
      rw [List.filterMap_cons]
      split
      · exact member
      · exact List.mem_cons_of_mem _ member

theorem auto_payment_within_debt {table : Table OrderRow} (keyed : table.Keyed) (below : ∀ key ∈ table.map (·.1),key < nextId)
    {calls : List Call} (sales : ∀ call ∈ calls,call.isSale = true) (turns : List Turn) (marketId : Nat) {debt : Int} (owing : 0 < debt)
    {moments : List Moment} (commits : moments.filterMap Moment.commit? <+: (serve table nextId calls turns).log)
    (covered : AllCovered marketId (.opening (-debt)) moments)
    (ran : (MarketSight.opening (-debt)).run marketId moments = some final) : final.autoPaid ≤ debt ∧
    ∀ made ∈ moments.filterMap Moment.commit?,∃ figures id row,figuresOf made.note = some figures ∧ made.note.call.orderId = some id ∧
      made.after.row id = some row ∧ row.order.paidAmount = figures.currentPaid + figures.autoPay := by
  have pays : ∀ made ∈ moments.filterMap Moment.commit?,∃ figures id row,
      figuresOf made.note = some figures ∧ made.note.call.orderId = some id ∧ made.after.row id = some row ∧
      row.order.paidAmount = figures.currentPaid + figures.autoPay ∧
      ∀ userId,(marketLegs userId made).sum = if figures.marketId = userId then figures.income else 0 := by
    intro made member
    obtain ⟨called,transaction,sees⟩ := serve_logged keyed below (commits.subset member)
    exact sale_pays transaction sees (sales _ called)
  constructor
  · have start : Bounded debt (.opening (-debt)) := by
      simp only [Bounded,MarketSight.opening,MarketSight.settled,debtAt,List.sum_nil]
      omega
    have kept := run_bounded (fun made member => by
      obtain ⟨figures,_,_,known,-,-,-,legs⟩ := pays made member
      exact ⟨figures,known,legs marketId⟩) covered ran start
    have left : 0 ≤ debtAt final.settled := Int.le_max_right _ _
    rw [Bounded] at kept
    omega
  · intro made member
    obtain ⟨figures,id,row,known,order,stored,paid,-⟩ := pays made member
    exact ⟨figures,id,row,known,order,stored,paid⟩

-- Two orders of market 1, whose cashbox stands at `balance`, sold one after the other.
def twoOrders : Table OrderRow := [(11,⟨sampleOrder,[],none⟩),(12,⟨sampleOrder,[],none⟩)]
def atBalance (balance : Int) (now : Nat) : Lookups := {sampleLookups 3000000 now with cashboxes:=fun _ _ => some balance}
def twoOrderSales (first second : Int) : List Call :=
  [.sell (atBalance first 1000) sampleCourier 11 {} (some "a"),.sell (atBalance second 2000) sampleCourier 12 {} (some "b")]
def twoOrderLog (first second : Int) : List OrderCommit := (serve twoOrders 13 (twoOrderSales first second) inTurn).log
-- The market's leg is applied before the next sale reads the balance, or stays in flight.
def appliedAtOnce (log : List OrderCommit) : List Moment := log.flatMap fun made => [.read made.who,.commit made,.apply 0]
def leftInFlight (log : List OrderCommit) : List Moment := log.flatMap fun made => [.read made.who,.commit made]

theorem appliedAtOnce_commits (log : List OrderCommit) : (appliedAtOnce log).filterMap Moment.commit? = log := by
  induction log with
  | nil => rfl
  | cons made rest ih =>
    rw [appliedAtOnce] at ih
    simp only [appliedAtOnce,List.flatMap_cons,List.filterMap_append,ih]
    rfl

theorem auto_payment_within_debt_two_sales : ∃ final,
    (MarketSight.opening (-10000000)).run 1 (appliedAtOnce (twoOrderLog (-10000000) (-3000000))) = some final ∧
    final.autoPaid = 10000000 ∧ final.autoPaid ≤ 10000000 := by
  have paid : ((MarketSight.opening (-10000000)).run 1 (appliedAtOnce (twoOrderLog (-10000000) (-3000000)))).map MarketSight.autoPaid =
      some 10000000 := by decide
  obtain ⟨final,ran,sum⟩ := Option.map_eq_some_iff.mp paid
  have keyed : Table.Keyed twoOrders := by decide
  have below : ∀ key ∈ twoOrders.map (·.1),key < 13 := by decide
  have sales : ∀ call ∈ twoOrderSales (-10000000) (-3000000),call.isSale = true := by
    intro call member
    simp only [twoOrderSales,List.mem_cons,List.not_mem_nil,or_false] at member
    rcases member with rfl | rfl
    · rfl
    · rfl
  have commits : (appliedAtOnce (twoOrderLog (-10000000) (-3000000))).filterMap Moment.commit? <+:
      (serve twoOrders 13 (twoOrderSales (-10000000) (-3000000)) inTurn).log := by
    rw [appliedAtOnce_commits]
    exact List.prefix_rfl
  have covered : AllCovered 1 (.opening (-10000000)) (appliedAtOnce (twoOrderLog (-10000000) (-3000000))) := by decide
  exact ⟨final,ran,sum,(auto_payment_within_debt keyed below sales inTurn 1 (by decide) commits covered ran).1⟩

-- The second sale reads the debt before the first one's leg is applied, and both are paid by it.
theorem debt_paid_twice : ∃ final,
    (MarketSight.opening (-5000000)).run 1 (leftInFlight (twoOrderLog (-5000000) (-5000000))) = some final ∧
    final.autoPaid = 10000000 ∧ ¬final.autoPaid ≤ 5000000 ∧
    ∀ id ∈ [11,12],((serve twoOrders 13 (twoOrderSales (-5000000) (-5000000)) inTurn).table.row id).map
      (fun row => (row.order.status,row.order.paidAmount)) = some (.partlyPaid,5000000) := by
  have paid : ((MarketSight.opening (-5000000)).run 1 (leftInFlight (twoOrderLog (-5000000) (-5000000)))).map MarketSight.autoPaid =
      some 10000000 := by decide
  obtain ⟨final,ran,sum⟩ := Option.map_eq_some_iff.mp paid
  refine ⟨final,ran,sum,?_,by decide⟩
  rw [sum]
  decide

end Elchi.Orders
