import Elchi.OrderSale
namespace Elchi.Orders
open RowLock

inductive RollbackTarget where
  | waiting | cancelled | cancelledSent
deriving DecidableEq, Repr

def rollbackTarget (targetStatus : Option String) : Except RpcError RollbackTarget :=
  let text := (jsTrim (targetStatus.getD "waiting")).toLower
  if text = "waiting" then .ok .waiting
  else if text = "cancelled" then .ok .cancelled
  else if text = "cancelled_sent" then .ok .cancelledSent
  else .error (badRequest ("Invalid rollback target: " ++ targetStatus.getD ""))
def RollbackTarget.message : RollbackTarget → String
  | .waiting => "Order WAITING holatiga qaytarildi"
  | .cancelled => "Order CANCELLED holatiga qaytarildi"
  | .cancelledSent => "Order bekor qilinib pochtaga qo'shildi"

def worksAtBranch (requester : Requester) (order : Order) : Bool :=
  requester.branchId.isSome && (requester.branchId == order.holderBranchId || requester.branchId == order.branchId)

-- Who may roll back from which status; PARTLY_PAID is left to the superadmin.
def checkRollback (requester : Requester) (order : Order) (target : RollbackTarget) : Except RpcError Unit :=
  let refused := badRequest ("Rollback mumkin emas (status: " ++ statusText order.status ++ ")")
  if target == .cancelledSent && !requester.isCourier then
    .error (badRequest "cancelled_sent rollback faqat courier uchun ruxsat etilgan")
  else if requester.isCourier && !([.sold,.cancelled].contains order.status) then .error refused
  else if requester.isSuperAdmin && !([.sold,.cancelled,.closed,.paid,.partlyPaid].contains order.status) then .error refused
  else if !requester.isCourier && !requester.isSuperAdmin && !requester.isManager then
    .error (badRequest "Rollback uchun ruxsat yo‘q")
  else if order.status == .partlyPaid && !requester.isSuperAdmin then
    .error (badRequest "Qisman to'langan buyurtmani faqat superadmin WAITING holatiga qaytara oladi")
  else if requester.isManager && !requester.isSuperAdmin && !worksAtBranch requester order then
    .error (badRequest "Order is not assigned to this manager branch")
  else .ok ()

def isSettledToHq (settlement : Option OrderSettlement) : Bool :=
  settlement.any fun row => !row.isDeleted && (row.status == .branchSettled || row.status == .marketSettled)

-- The extra cost to give back on one cashbox: the latest history row of the order there, when
-- it lies near the sale, or near the last update of a cancelled order. Zero when none does.
def standingExtraCost (lookups : Lookups) (id : Nat) (order : Order) (userId : Nat) : Int :=
  match lookups.extraCosts userId id with
  | none => 0
  | some cost =>
    let near :=
      if isSold order.status then order.soldAt.any fun soldAt => isNearInTime soldAt cost.createdAt
      else [.cancelled,.closed].contains order.status && isNearInTime order.updatedAt cost.createdAt
    if cost.amount > 0 ∧ near then cost.amount else 0

-- Every correction of one rollback has its own number in the dedup epoch.
def numbered (epoch : String) (legs : List BalanceLeg) : List BalanceLeg :=
  legs.zipIdx.map fun entry => {entry.1 with dedupEpoch:=epoch ++ ":" ++ toString entry.2}

structure RollbackPlan where
  courier : Option Nat
  branch : Option Nat
  marketTariff : Int
  courierShare : Int
  branchAmount : Int
  extra : List BalanceLeg
  cod : List BalanceLeg
  epoch : String
  record : List OrderEvent
  update : UpdateDto

def RollbackPlan.legs (plan : RollbackPlan) : List BalanceLeg := numbered plan.epoch (plan.extra ++ plan.cod)
def RollbackPlan.events (plan : RollbackPlan) : List OrderEvent :=
  (plan.legs.take plan.extra.length).map .balance ++ plan.record ++ (plan.legs.drop plan.extra.length).map .balance

def rollbackUpdate (requester : Requester) (order : Order) : RollbackTarget → UpdateDto
  | .waiting =>
    if requester.isSuperAdmin && [.paid,.partlyPaid].contains order.status then
      {status:=some .waiting,paidAmount:=some 0,soldAt:=some none}
    else {status:=some .waiting,toBePaid:=some 0,soldAt:=some none}
  | _ => {status:=some .cancelled,canceledPostId:=some none,returnRequested:=some false,soldAt:=some none}

def rollbackExtra (leg : BalanceLeg) (marketId : Nat) (actor : Option (Nat × CashboxType)) (marketCost actorCost : Int) :
    List BalanceLeg :=
  movement {leg with userId:=marketId,cashboxType:=.forMarket} marketCost ++
  (match actor with
    | some (userId,type) => movement {leg with userId:=userId,cashboxType:=type} actorCost
    | none => [])

-- The reversal is computed again, from the snapshot on the row and the parties of the day.
def reversal (lookups : Lookups) (requester : Requester) (id : Nat) (order : Order) (target : RollbackTarget)
    (requestId : Option String) (courierId : Nat) (parties : SaleParties) : RollbackPlan :=
  let marketTariff := order.marketTariff.getD (parties.market.tariff order.whereDeliver)
  let courierTariff := order.courierTariff.getD (parties.financialActor.tariff order.whereDeliver)
  let courierShare := order.courierShare.getD courierTariff
  let branchAmount := order.branchCashboxAmount.getD (order.totalPrice - courierShare - order.branchShare.getD 0)
  let branch := branchCashboxOf lookups (resolveSettlementBranchId lookups order)
  let expense := actorExpense requester courierId
  let expenseCashbox := if (lookups.cashboxes expense.1 expense.2).isSome then some expense else none
  let marketCost := standingExtraCost lookups id order order.marketId
  let actorCost := standingExtraCost lookups id order expense.1
  let rolledBack := max marketCost actorCost
  let correction := fun comment => saleLeg id requester "" comment .correction []
  {courier:=parties.courier,branch:=branch,marketTariff:=marketTariff,courierShare:=courierShare,branchAmount:=branchAmount,
   extra:=rollbackExtra (correction (if isSold order.status then "Qo'shimcha xarajat orqaga qaytarildi"
     else "Bekor qilingan buyurtmaga yozilgan qo'shimcha xarajat orqaga qaytarildi"))
     order.marketId expenseCashbox marketCost actorCost,
   cod:=if isSold order.status then
       codLegs (correction (jsTrim ("[ROLLBACK] " ++ order.comment.getD ""))) order.marketId parties.courier branch
         (marketTariff - order.totalPrice) (courierShare - order.totalPrice) (-branchAmount)
     else [],
   epoch:=resolveDedupEpoch lookups requestId,
   record:=if isSold order.status ∧ rolledBack > 0 then
       [.financialBalance rolledBack .correction id order.marketId ("Order #" ++ toString id ++ " extra cost rollback")]
     else [],
   update:=rollbackUpdate requester order target}

def rollbackPlan (lookups : Lookups) (requester : Requester) (id : Nat) (order : Order) (target : RollbackTarget)
    (requestId : Option String) : Except RpcError RollbackPlan := do
  let courierId ← resolveActorCourierId requester order (order.postId.bind lookups.posts)
  let parties ← saleParties lookups requester order courierId
  if requester.isManagerRequester && requester.branchId.isNone then .error (badRequest "Manager branch not found")
  else .ok (reversal lookups requester id order target requestId courierId parties)

def resetSettlement (settlement : OrderSettlement) : OrderSettlement :=
  {settlement with
    courierAmount:=0,branchAmount:=0,marketAmount:=0,status:=.pending,courierToBranchAt:=none,courierToBranchBy:=none,
    branchToHqAt:=none,branchToHqBy:=none,hqToMarketAt:=none,hqToMarketBy:=none,isDeleted:=true}

-- mergePartialChildrenBack. A product's quantity goes to the last line of the parent with it.
def addItem (items : List OrderItem) (item : OrderItem) : List OrderItem :=
  if items.any fun line => line.productId == item.productId then
    (items.reverse.modify (items.reverse.findIdx fun line => line.productId == item.productId)
      fun line => {line with quantity:=line.quantity + item.quantity}).reverse
  else items ++ [item]
def partialChild (id : Nat) (_key : Nat) (row : OrderRow) : Bool :=
  row.order.parentOrderId == some id && [.cancelled,.waiting].contains row.order.status && !row.order.isDeleted &&
    row.order.deletedAt.isNone
def mergeItems (children : Table OrderRow) (items : List OrderItem) : List OrderItem :=
  (children.flatMap fun child => child.2.items).foldl addItem items
-- The order is then saved with the line items it was first read with, and the save cascades:
-- those lines get their old quantities back, and a line it does not list would lose its order.
def cascadeItems (merged loaded : List OrderItem) : Except RpcError (List OrderItem) :=
  if merged.length = loaded.length then .ok loaded
  else .error (badRequest "Majburiy maydon bo'sh yuborildi: order_items.order_id")
def mergeOrder (now : Nat) (children : Table OrderRow) (loaded stored : Order) : Order :=
  if children.isEmpty then stored
  else saveOrder now {loaded with
    totalPrice:=loaded.totalPrice + (children.map fun child => child.2.order.totalPrice).sum,
    productQuantity:=loaded.productQuantity + (children.map fun child => child.2.order.productQuantity).sum} stored
def deleteChild (now : Nat) (child : Nat × OrderRow) : Write OrderRow :=
  .update child.1 (saveRow now {child.2.order with isDeleted:=true,deletedAt:=some now})

-- The merge saves the order as first read, then updateFull saves its own reading over it.
def rollbackRow (now : Nat) (children : Table OrderRow) (loaded : Order) (items : List OrderItem) (updated : Order)
    (stored : OrderRow) : OrderRow :=
  {order:=saveOrder now updated (mergeOrder now children loaded stored.order),
   items:=if children.isEmpty then stored.items else items,settlement:=stored.settlement.map resetSettlement}
def rollbackWrites (now id : Nat) (children : Table OrderRow) (loaded : Order) (items : List OrderItem) (updated : Order) :
    List (Write OrderRow) :=
  children.map (deleteChild now) ++ [.update id (rollbackRow now children loaded items updated)]

theorem rollbackWrites_updates (now id : Nat) (children : Table OrderRow) (loaded : Order) (items : List OrderItem) (updated : Order) :
    ∀ key value,.insert key value ∉ rollbackWrites now id children loaded items updated := by
  intro key value
  simp [rollbackWrites,deleteChild]

def byCreation (children : Table OrderRow) : Table OrderRow :=
  children.mergeSort fun left right => left.2.order.createdAt ≤ right.2.order.createdAt

def lockUnchanged (id : Nat) (originalStatus : OrderStatus) (next : Request) : Request :=
  .lock (storedOrder id) fun
    | some (_,row,_) =>
      if row.order.status = originalStatus then next
      else fail (badRequest ("Rollback holati o'zgargan (status: " ++ statusText row.order.status ++ ")"))
    | none => fail (badRequest "Rollback holati o'zgargan (status: yo'q)")

def rollbackOrderToWaiting (lookups : Lookups) (requester : Requester) (id : Nat) (targetStatus requestId : Option String) :
    Request :=
  match rollbackTarget targetStatus with
  | .error error => fail error
  | .ok target => findById id fun row => match checkRollback requester row.order target with
    | .error error => fail error
    | .ok () => .find (fun key _ => key == id) fun current =>
      if current.any fun entry => isSettledToHq entry.2.settlement then
        fail (badRequest "Bu buyurtma summasi bosh ofisga to'langan — rollback mumkin emas")
      else match rollbackPlan lookups requester id row.order target requestId with
      | .error error => fail error
      | .ok plan => lockUnchanged id row.order.status <| .find (partialChild id) fun children =>
        match cascadeItems (mergeItems (byCreation children) row.items) row.items with
        | .error error => fail error
        | .ok items => updateWithin lookups requester id plan.update fun updated events =>
          .commit {call:=.rollback lookups requester id targetStatus requestId,loaded:=some row.order,children:=byCreation children}
            (rollbackWrites lookups.now id (byCreation children) row.order items updated)
            ((plan.events ++ events).map (id,·)) (success 200 target.message)

end Elchi.Orders
