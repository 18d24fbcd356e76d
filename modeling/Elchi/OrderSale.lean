import Elchi.OrderUpdate
namespace Elchi.Orders
open RowLock

-- Who takes part in a sale: `courier` owns the courier cashbox, which a manager's sale has not.
structure SaleParties where
  market : Market
  financialActor : Staff
  marketBalance : Int
  courier : Option Nat
deriving DecidableEq, Repr

def saleParties (lookups : Lookups) (requester : Requester) (order : Order) (courierId : Nat) : Except RpcError SaleParties :=
  match lookups.markets order.marketId with
  | none => .error (notFound "Market not found")
  | some market =>
    match if requester.isManagerRequester then lookups.users requester.id else lookups.couriers courierId with
    | none => .error (notFound (if requester.isManagerRequester then "Manager not found" else "Courier not found"))
    | some financialActor => match lookups.cashboxes order.marketId .forMarket with
      | none => .error (notFound "Market cashbox not found")
      | some marketBalance =>
        if requester.isManagerRequester then .ok ⟨market,financialActor,marketBalance,none⟩
        else match lookups.cashboxes courierId .forCourier with
        | none => .error (notFound "Courier cashbox not found")
        | some _ => .ok ⟨market,financialActor,marketBalance,some courierId⟩

-- The settlement branch when it has a cashbox; one is created on the way when it is missing.
def branchCashboxOf (lookups : Lookups) (branchId : Option Nat) : Option Nat :=
  branchId.filter fun branch => (lookups.cashboxes branch .branch).isSome

-- The three legs of a sale or of its reversal, as signed amounts.
def codLegs (leg : BalanceLeg) (marketId : Nat) (courier branch : Option Nat) (marketAmount courierAmount branchAmount : Int) :
    List BalanceLeg :=
  movement {leg with userId:=marketId,cashboxType:=.forMarket} marketAmount ++
  (match courier with
    | some courierId => movement {leg with userId:=courierId,cashboxType:=.forCourier} courierAmount
    | none => []) ++
  (match branch with
    | some branchId => movement {leg with userId:=branchId,cashboxType:=.branch} branchAmount
    | none => [])

-- Whose cashbox bears the actor's side of an extra cost: the manager's branch, or the courier.
def actorExpense (requester : Requester) (courierId : Nat) : Nat × CashboxType :=
  if requester.isManagerRequester then (requester.branchId.getD 0,.branch) else (courierId,.forCourier)

def extraCostLegs (leg : BalanceLeg) (marketId : Nat) (actor : Option (Nat × CashboxType)) (extraCost : Int) : List BalanceLeg :=
  if extraCost > 0 then
    {leg with userId:=marketId,cashboxType:=.forMarket,amount:=extraCost,operationType:=.expense} ::
    (match actor with
      | some (userId,type) => [{leg with userId:=userId,cashboxType:=type,amount:=extraCost,operationType:=.expense}]
      | none => [])
  else []
def extraCostRecord (id marketId : Nat) (source : FinancialSource) (text : String) (extraCost : Int) : List OrderEvent :=
  if extraCost > 0 then [.financialBalance (-extraCost) source id marketId ("Order #" ++ toString id ++ text)] else []

-- recordSaleSettlement: the row restarts with the sale; a sale without a courier skips the first leg.
def saleSettlement (now : Nat) (courier branch : Option Nat) (marketId : Nat) (courierAmount branchAmount marketAmount : Int) :
    OrderSettlement :=
  let status : SettlementStatus :=
    if courier.isSome then .pending else if branch.isSome then .courierSettled else .branchSettled
  {courierId:=courier,branchId:=branch,marketId:=some marketId,courierAmount:=max courierAmount 0,
   branchAmount:=max branchAmount 0,marketAmount:=max marketAmount 0,status:=status,
   courierToBranchAt:=if courier.isSome then none else some now,courierToBranchBy:=none,
   branchToHqAt:=if courier.isNone && branch.isNone then some now else none,branchToHqBy:=none,
   hqToMarketAt:=none,hqToMarketBy:=none,isDeleted:=false}

-- What of the net amount counts as paid, the market's debt first, and the status it gives.
def paidAfter (net currentPaid marketBalance : Int) : Int :=
  let debtBeforeSale := if marketBalance < 0 then -marketBalance else 0
  min net (currentPaid + min (net - currentPaid) debtBeforeSale)
def saleStatus (net paid : Int) : OrderStatus :=
  if max (net - paid) 0 = 0 ∧ paid > 0 then .paid else if paid > 0 then .partlyPaid else .sold

-- All a sale decides before its transaction.
structure SalePlan where
  courier : Option Nat
  branch : Option Nat
  marketTariff : Int
  courierShare : Int
  branchAmount : Int
  cod : List BalanceLeg
  extra : List BalanceLeg
  record : List OrderEvent
  update : UpdateDto
  settlement : OrderSettlement

def SalePlan.legs (plan : SalePlan) : List BalanceLeg := plan.cod ++ plan.extra
def SalePlan.events (plan : SalePlan) : List OrderEvent := plan.legs.map .balance ++ plan.record

def saleLeg (id : Nat) (requester : Requester) (epoch comment : String) (source : SourceType) (proofFiles : List String) : BalanceLeg :=
  ⟨0,.main,0,.income,source,id,requester.id,comment,proofFiles,epoch⟩

def nonEmpty (comment : String) : Option String := if comment = "" then none else some comment

-- What a sale is settled on: the price, what each party keeps of it and the branch it goes through.
structure SaleTerms where
  price : Int
  marketTariff : Int
  courierTariff : Int
  courierShare : Int
  branchShare : Int
  extraCost : Int
  settlementBranchId : Option Nat
  branch : Option Nat
deriving DecidableEq, Repr

def saleTerms (lookups : Lookups) (requester : Requester) (order : Order) (parties : SaleParties)
    (price marketTariff courierTariff extraCost : Int) : SaleTerms :=
  let settlementBranchId := resolveSettlementBranchId lookups order
  {price:=price,marketTariff:=marketTariff,courierTariff:=courierTariff,
   courierShare:=resolveSaleActorShare requester.isManagerRequester parties.financialActor courierTariff,
   branchShare:=resolveBranchShare lookups settlementBranchId,extraCost:=extraCost,
   settlementBranchId:=settlementBranchId,branch:=branchCashboxOf lookups settlementBranchId}

def SaleTerms.net (terms : SaleTerms) : Int := max (terms.price - terms.marketTariff) 0
def SaleTerms.branchNet (terms : SaleTerms) : Int := terms.price - terms.courierShare - terms.branchShare
def SaleTerms.comment (terms : SaleTerms) (kind finalComment : String) : String :=
  if terms.price = 0 then "0 so'mlik mahsulot " ++ kind
  else if terms.price < terms.marketTariff then soum terms.price ++ " so'mlik mahsulot " ++ kind
  else finalComment

def saleExpense (requester : Requester) (courierId : Nat) (parties : SaleParties) (terms : SaleTerms) : Option (Nat × CashboxType) :=
  if requester.isManagerRequester then terms.branch.map fun _ => actorExpense requester courierId
  else parties.courier.map fun _ => actorExpense requester courierId

-- The row keeps an older tariff snapshot and takes the new shares.
def saleUpdate (order : Order) (terms : SaleTerms) (branchAmount paid : Int) (soldAt : Nat) (finalComment : String)
    (proofFiles : List String) : UpdateDto :=
  {status:=some (saleStatus terms.net paid),toBePaid:=some terms.net,paidAmount:=some paid,soldAt:=some (some soldAt),
   marketTariff:=some (some (order.marketTariff.getD terms.marketTariff)),
   courierTariff:=some (some (order.courierTariff.getD terms.courierTariff)),courierShare:=some (some terms.courierShare),
   branchShare:=some (some terms.branchShare),branchCashboxAmount:=some (some branchAmount),comment:=nonEmpty finalComment,
   proofFiles:=if proofFiles = [] then none else some (some proofFiles)}

def salePlan (lookups : Lookups) (requester : Requester) (id : Nat) (order : Order) (requestId : Option String) (courierId : Nat)
    (parties : SaleParties) (terms : SaleTerms) (kind finalComment : String) (proofFiles : List String) (currentPaid : Int)
    (soldAt : Nat) : SalePlan :=
  let branchAmount := resolveBranchCashboxSaleAmount terms.price terms.branchNet requester.isManagerRequester
  let paid := paidAfter terms.net currentPaid parties.marketBalance
  let epoch := resolveDedupEpoch lookups requestId
  {courier:=parties.courier,branch:=terms.branch,marketTariff:=terms.marketTariff,courierShare:=terms.courierShare,
   branchAmount:=branchAmount,
   cod:=codLegs (saleLeg id requester epoch (terms.comment kind finalComment) .sell []) order.marketId parties.courier terms.branch
     (terms.price - terms.marketTariff) (terms.price - terms.courierShare) branchAmount,
   extra:=extraCostLegs (saleLeg id requester epoch finalComment .extraCost proofFiles) order.marketId
     (saleExpense requester courierId parties terms) terms.extraCost,
   record:=extraCostRecord id order.marketId .sellExtraCost " sell extra cost" terms.extraCost,
   update:=saleUpdate order terms branchAmount paid soldAt finalComment proofFiles,
   settlement:=saleSettlement lookups.now parties.courier terms.settlementBranchId order.marketId
     (max (terms.price - terms.courierShare) 0) (max terms.branchNet 0) terms.net}

-- sellOrder takes the live tariffs of the day.
def sellTerms (lookups : Lookups) (requester : Requester) (order : Order) (parties : SaleParties) (dto : SellDto) : SaleTerms :=
  saleTerms lookups requester order parties order.totalPrice (parties.market.tariff order.whereDeliver)
    (parties.financialActor.tariff order.whereDeliver) (max (dto.extraCost.getD 0) 0)
def sellPlan (lookups : Lookups) (requester : Requester) (id : Nat) (order : Order) (dto : SellDto) (requestId : Option String) :
    Except RpcError SalePlan :=
  if order.status ≠ .waiting then .error (badRequest "Order not found or not in waiting status")
  else match order.postId with
  | none => .error (badRequest "Order has no post")
  | some postId => do
    let courierId ← resolveActorCourierId requester order (lookups.posts postId)
    let parties ← saleParties lookups requester order courierId
    let terms := sellTerms lookups requester order parties dto
    let proofFiles ← enforceOperationProof lookups (some parties.market) .sell terms.extraCost terms.price dto.proofFileKeys
      dto.proofFileKeysVerified
    let finalComment := generateSaleComment order.comment dto.comment terms.extraCost []
    let requestedPaid := dto.paidAmount.getD order.paidAmount
    if requestedPaid < 0 then .error (badRequest "paidAmount must be a non-negative number")
    else if requestedPaid > terms.net then .error (badRequest
      ("paidAmount (" ++ soum requestedPaid ++ ") qoldiq summa (" ++ soum terms.net ++ ") dan oshmasligi kerak"))
    else .ok (salePlan lookups requester id order requestId courierId parties terms "sotuvi" finalComment proofFiles
      (min (max requestedPaid 0) terms.net) lookups.now)

-- lockWaitingOrder, then the transaction.
def lockWaitingOrder (id : Nat) (next : Request) : Request :=
  .lock (storedOrder id) fun
    | some (_,row,_) =>
      if row.order.status = .waiting then next else fail (badRequest "Order not found or not in waiting status")
    | none => fail (badRequest "Order not found or not in waiting status")

def sellOrder (lookups : Lookups) (requester : Requester) (id : Nat) (dto : SellDto) (requestId : Option String) : Request :=
  findById id fun row => match sellPlan lookups requester id row.order dto requestId with
  | .error error => fail error
  | .ok plan => lockWaitingOrder id <| updateWithin lookups requester id plan.update fun updated events =>
      .commit {call:=.sell lookups requester id dto requestId,loaded:=some row.order}
        [.update id fun stored => {saveRow lookups.now updated stored with settlement:=some plan.settlement}]
        ((plan.events ++ events).map (id,·)) (success 200 "Order sold")

structure CancelPlan where
  extra : List BalanceLeg
  record : List OrderEvent
  update : UpdateDto

def cancelPlan (lookups : Lookups) (requester : Requester) (id : Nat) (order : Order) (dto : SellDto) (requestId : Option String) :
    Except RpcError CancelPlan :=
  if order.status ≠ .waiting then .error (badRequest "Order not found or not in waiting status")
  else match order.postId with
  | none => .error (badRequest "Order has no post")
  | some postId => do
    let courierId ← resolveActorCourierId requester order (lookups.posts postId)
    let extraCost := max (dto.extraCost.getD 0) 0
    let finalComment := generateSaleComment order.comment dto.comment extraCost []
    let proofFiles ← enforceOperationProof lookups (lookups.markets order.marketId) .cancel extraCost order.totalPrice
      dto.proofFileKeys dto.proofFileKeysVerified
    let expense := actorExpense requester courierId
    if requester.isManagerRequester && requester.branchId.isNone then .error (badRequest "Manager branch not found")
    else if extraCost > 0 ∧ lookups.cashboxes order.marketId .forMarket = none then
      .error (notFound "Market cashbox not found")
    else if extraCost > 0 ∧ lookups.cashboxes expense.1 expense.2 = none then
      .error (notFound (if requester.isManagerRequester then "Branch cashbox not found" else "Courier cashbox not found"))
    else
      let epoch := resolveDedupEpoch lookups requestId
      .ok {
        extra:=extraCostLegs (saleLeg id requester epoch finalComment .extraCost proofFiles) order.marketId (some expense) extraCost,
        record:=extraCostRecord id order.marketId .cancelExtraCost " cancel extra cost" extraCost,
        update:={
          status:=some .cancelled,comment:=nonEmpty finalComment,soldAt:=some none,
          proofFiles:=if proofFiles = [] then none else some (some proofFiles)}}

def cancelOrder (lookups : Lookups) (requester : Requester) (id : Nat) (dto : SellDto) (requestId : Option String) : Request :=
  findById id fun row => match cancelPlan lookups requester id row.order dto requestId with
  | .error error => fail error
  | .ok plan => lockWaitingOrder id <| updateWithin lookups requester id plan.update fun updated events =>
      .commit {call:=.cancel lookups requester id dto requestId,loaded:=some row.order}
        [.update id (saveRow lookups.now updated)]
        ((plan.extra.map OrderEvent.balance ++ plan.record ++ events).map (id,·)) (success 200 "Order canceled")

def requestedQuantity (info : List PartlySellItem) (item : OrderItem) : Option Int :=
  (info.find? fun requested => requested.productId == item.productId).map (·.quantity)
-- The unsold rest of every line, for the cancelled child order.
def cancelledItems (existing : List OrderItem) (info : List PartlySellItem) : List OrderItem :=
  existing.filterMap fun item => match requestedQuantity info item with
    | some quantity => if (item.quantity : Int) - quantity > 0 then some ⟨item.productId,((item.quantity : Int) - quantity).toNat⟩ else none
    | none => none
def soldItems (existing : List OrderItem) (info : List PartlySellItem) : List OrderItem :=
  existing.map fun item => match requestedQuantity info item with
    | some quantity => if quantity < item.quantity then ⟨item.productId,quantity.toNat⟩ else item
    | none => item

def checkPartlySellItems (existing : List OrderItem) (info : List PartlySellItem) : Except RpcError Unit :=
  if info.any fun requested => requested.quantity < 0 then .error (badRequest "Item quantity must be a non-negative number")
  else if (info.map (·.quantity)).sum > ((itemsQuantity existing : Nat) : Int) then
    .error (badRequest "Partly sell quantity cannot exceed original quantity")
  else
    -- the lines in order: a missing product or a quantity above the line's own
    match existing.filterMap fun item => match requestedQuantity info item with
      | none => some (notFound ("Product not found in request: " ++ toString item.productId))
      | some quantity => if quantity > item.quantity then
          some (badRequest ("Quantity cannot exceed original amount for product " ++ toString item.productId)) else none with
    | error :: _ => .error error
    | [] => match info.find? fun requested => !existing.any fun item => item.productId == requested.productId with
      | some requested => .error (notFound ("Product not found in order: " ++ toString requested.productId))
      | none =>
        if cancelledItems existing info = [] then
          .error (badRequest "Qisman sotishda kamida bitta mahsulot soni kamaytirilishi kerak")
        else .ok ()

structure PartlySalePlan extends SalePlan where
  soldQuantity : Nat
  soldItems : List OrderItem
  child : Order
  childItems : List OrderItem

-- The unsold rest becomes a cancelled order of its own.
def unsoldOrder (lookups : Lookups) (requester : Requester) (id : Nat) (order : Order) (price : Int) (unsold : List OrderItem)
    (cancelledBranchId : Nat) (cancelledCourierId : Option Nat) (qrCodeToken : String) : Order :=
  let holder := resolveHolderFromState lookups (some cancelledBranchId) cancelledCourierId
  {marketId:=order.marketId,customerId:=order.customerId,productQuantity:=itemsQuantity unsold,
   whereDeliver:=order.whereDeliver,totalPrice:=max (order.totalPrice - price) 0,marketTariff:=none,courierTariff:=none,
   courierShare:=none,branchShare:=none,branchCashboxAmount:=none,toBePaid:=0,paidAmount:=0,status:=.cancelled,
   comment:=some "Qisman bekor qilingan mahsulotlar",operator:=order.operator,operatorId:=order.operatorId,
   postId:=order.postId,canceledPostId:=none,returnRequested:=false,proofFiles:=none,soldAt:=none,
   districtId:=order.districtId,regionId:=order.regionId,branchId:=some cancelledBranchId,
   homeBranchId:=order.homeBranchId.or order.branchId,currentBatchId:=none,courierId:=cancelledCourierId,
   assignedAt:=cancelledCourierId.bind fun _ => some (order.assignedAt.getD lookups.now),
   holderType:=holder.holderType,holderBranchId:=holder.holderBranchId,holderCourierId:=holder.holderCourierId,
   lastHandoverAt:=some lookups.now,lastHandoverBy:=some requester.id,returnReason:=none,address:=order.address,
   qrCodeToken:=some qrCodeToken,parentOrderId:=some id,externalId:=none,source:=order.source,isDeleted:=false,
   deletedAt:=none,createdAt:=lookups.now,updatedAt:=lookups.now}

-- A partial sale prefers the snapshot already on the row to the live tariff.
def partlySellTerms (lookups : Lookups) (requester : Requester) (order : Order) (parties : SaleParties) (dto : PartlySellDto) :
    SaleTerms :=
  saleTerms lookups requester order parties dto.totalPrice (order.marketTariff.getD (parties.market.tariff order.whereDeliver))
    (order.courierTariff.getD (parties.financialActor.tariff order.whereDeliver)) (max (dto.extraCost.getD 0) 0)
def partialSale (plan : SalePlan) (price : Int) : SalePlan :=
  {plan with update:={plan.update with totalPrice:=some price,returnRequested:=some false}}
def partlySellPlan (lookups : Lookups) (requester : Requester) (id : Nat) (row : OrderRow) (dto : PartlySellDto)
    (requestId : Option String) (qrCodeToken : String) : Except RpcError PartlySalePlan :=
  let order := row.order
  if order.status ≠ .waiting then .error (badRequest "Order not found or not in waiting status")
  else match order.postId with
  | none => .error (badRequest "Order has no post")
  | some postId => do
    let courierId ← resolveActorCourierId requester order (lookups.posts postId)
    if dto.orderItemInfo = [] then .error (badRequest "order_item_info is required")
    else if dto.totalPrice < 0 then .error (badRequest "totalPrice must be a non-negative number")
    else
      let parties ← saleParties lookups requester order courierId
      let terms := partlySellTerms lookups requester order parties dto
      let proofFiles ← enforceOperationProof lookups (some parties.market) .sell terms.extraCost terms.price dto.proofFileKeys
        dto.proofFileKeysVerified
      let finalComment := generateSaleComment order.comment dto.comment terms.extraCost ["Buyurtma arzonroqqa sotildi!"]
      checkPartlySellItems row.items dto.orderItemInfo
      match order.holderBranchId.or (order.branchId.or (order.homeBranchId.or requester.branchId)) with
      | none => .error (badRequest "Qisman bekor qilingan order uchun branch aniqlanmadi")
      | some cancelledBranchId =>
        let plan := salePlan lookups requester id order requestId courierId parties terms "qisman sotuvi" finalComment proofFiles
          (min (max order.paidAmount 0) terms.net) (order.soldAt.getD lookups.now)
        let unsold := cancelledItems row.items dto.orderItemInfo
        .ok {partialSale plan terms.price with
          soldQuantity:=((dto.orderItemInfo.map PartlySellItem.quantity).sum).toNat,
          soldItems:=Orders.soldItems row.items dto.orderItemInfo,
          child:=unsoldOrder lookups requester id order terms.price unsold cancelledBranchId
            (if requester.isManagerRequester then none else some courierId) qrCodeToken,
          childItems:=unsold}

-- `qrCodeToken` is the random token the child order gets.
def partlySellOrder (lookups : Lookups) (requester : Requester) (id : Nat) (dto : PartlySellDto) (requestId : Option String)
    (qrCodeToken : String) : Request :=
  findById id fun row => match partlySellPlan lookups requester id row dto requestId qrCodeToken with
  | .error error => fail error
  | .ok plan => lockWaitingOrder id <| updateWithin lookups requester id plan.update fun updated events =>
      .fresh fun childId => .commit {call:=.partlySell lookups requester id dto requestId qrCodeToken,loaded:=some row.order}
        [.update id fun stored =>
          {order:={saveOrder lookups.now updated stored.order with productQuantity:=plan.soldQuantity},items:=plan.soldItems,
           settlement:=some plan.settlement},
         .insert childId ⟨plan.child,plan.childItems,none⟩]
        ((plan.events ++ events).map (id,·)) (success 200 "Order qisman sotildi")

end Elchi.Orders
