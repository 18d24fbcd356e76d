import Elchi.GuardedRuns
import Elchi.OrderCommits
import Elchi.TransferBatches
namespace Elchi.Batches
open Orders RowLock

def findOrder (id : Nat) (depot : Depot) : Except RpcError OrderRow :=
  match depot.orders.row id with
  | some row => if live row.order then .ok row else .error (notFound ("Order #" ++ toString id ++ " topilmadi"))
  | none => .error (notFound ("Order #" ++ toString id ++ " topilmadi"))

-- What every change of an order records, from the row as it was to the entity saved.
def statusChange (before after : Order) : List TrackingEvent :=
  if before.status = after.status then [] else [⟨some before.status,after.status⟩]
def Depot.record (depot : Depot) (id : Nat) (before after : Order) (orders : Table OrderRow) : Depot :=
  {depot with
    orders:=orders,tracking:=depot.tracking ++ (statusChange before after).map (id,·),
    custody:=depot.custody ++ (handed (holderOf after) before).map (id,·)}

structure CreateDto where
  marketId : Nat
  customerId : Nat
  whereDeliver : Option WhereDeliver := none
  totalPrice : Option Int := none
  toBePaid : Option Int := none
  paidAmount : Option Int := none
  status : Option OrderStatus := none
  comment : Option String := none
  operator : Option String := none
  operatorId : Option Nat := none
  postId : Option Nat := none
  canceledPostId : Option Nat := none
  soldAt : Option Nat := none
  branchId : Option Nat := none
  homeBranchId : Option Nat := none
  currentBatchId : Option Nat := none
  courierId : Option Nat := none
  assignedAt : Option Nat := none
  returnReason : Option String := none
  districtId : Option Nat := none
  regionId : Option Nat := none
  address : Option String := none
  qrCodeToken : Option String := none
  parentOrderId : Option Nat := none
  externalId : Option String := none
  source : Option OrderSource := none
  items : List OrderItem := []
deriving DecidableEq, Repr

-- `userBranch` is the branch that the branch service names for the requester.
def resolveBranchIdForOrder (lookups : Lookups) (userBranch explicitBranchId : Option Nat) (requester : Option Requester) :
    Except RpcError Nat :=
  match explicitBranchId.or ((requester.bind (·.branchId)).or ((requester.bind fun _ => userBranch).or lookups.hqBranchId)) with
  | some branchId => .ok branchId
  | none => .error ⟨500,"Cannot resolve branch_id for order: no explicit/JWT/assigned branch and HQ fallback unavailable"⟩

def createdOrder (lookups : Lookups) (dto : CreateDto) (requester : Option Requester) (branchId : Nat) (qrCodeToken : String) : Order :=
  let isOperatorRequester := requester.any fun user => user.hasRole .registrator || user.hasRole .marketOperator
  let holder := resolveHolderFromState lookups (some branchId) dto.courierId
  {marketId:=dto.marketId,customerId:=dto.customerId,productQuantity:=itemsQuantity dto.items,
   whereDeliver:=dto.whereDeliver.getD .center,totalPrice:=dto.totalPrice.getD 0,marketTariff:=none,courierTariff:=none,
   courierShare:=none,branchShare:=none,branchCashboxAmount:=none,toBePaid:=dto.toBePaid.getD 0,
   paidAmount:=dto.paidAmount.getD 0,status:=dto.status.getD .new,comment:=dto.comment,operator:=dto.operator,
   operatorId:=dto.operatorId.or (if isOperatorRequester then requester.map (·.id) else none),postId:=dto.postId,
   canceledPostId:=dto.canceledPostId,returnRequested:=false,proofFiles:=none,soldAt:=dto.soldAt,districtId:=dto.districtId,
   regionId:=dto.regionId,branchId:=some branchId,homeBranchId:=dto.homeBranchId.or (some branchId),
   currentBatchId:=dto.currentBatchId,courierId:=dto.courierId,assignedAt:=dto.assignedAt,holderType:=holder.holderType,
   holderBranchId:=holder.holderBranchId,holderCourierId:=holder.holderCourierId,lastHandoverAt:=some lookups.now,
   lastHandoverBy:=requester.map (·.id),returnReason:=dto.returnReason,address:=dto.address,
   qrCodeToken:=some (dto.qrCodeToken.getD qrCodeToken),parentOrderId:=dto.parentOrderId,externalId:=dto.externalId,
   source:=dto.source.getD .internal,isDeleted:=false,deletedAt:=none,createdAt:=lookups.now,updatedAt:=lookups.now}

def mapInitialStatusForTracking (status : OrderStatus) : OrderStatus := if status = .new then .created else status
def Depot.insertOrder (depot : Depot) (row : OrderRow) : Depot :=
  {depot with
    orders:=depot.orders.put depot.nextOrderId row,
    tracking:=depot.tracking ++ [(depot.nextOrderId,⟨none,mapInitialStatusForTracking row.order.status⟩)],
    custody:=depot.custody ++ [(depot.nextOrderId,⟨none,none,none,holderOf row.order⟩)],
    nextOrderId:=depot.nextOrderId+1}

-- `qrCodeToken` is the random token of an order that brings none.
def create (lookups : Lookups) (userBranch : Option Nat) (dto : CreateDto) (requester : Option Requester) (qrCodeToken : String)
    (depot : Depot) : Except RpcError Depot := do
  let branchId ← resolveBranchIdForOrder lookups userBranch dto.branchId requester
  .ok (depot.insertOrder ⟨createdOrder lookups dto requester branchId qrCodeToken,dto.items,none⟩)

-- The line items are replaced at once; the order and its events are one transaction.
def Depot.saveFull (depot : Depot) (now id : Nat) (loaded entity : Order) : Depot :=
  depot.record id loaded entity ((Write.update id (saveRow now entity)).apply depot.orders)
def Depot.editItems (depot : Depot) (id : Nat) (edit : List OrderItem → List OrderItem) : Depot :=
  {depot with orders:=(Write.update id fun stored => {stored with items:=edit stored.items}).apply depot.orders}
def updateFull (lookups : Lookups) (requesterId : Option Nat) (id : Nat) (dto : UpdateDto) (depot : Depot) :
    Except RpcError (List (Depot → Depot)) := do
  let row ← findOrder id depot
  let updated ← editOrder lookups requesterId id dto row
  let save := fun (current : Depot) => current.saveFull lookups.now id row.order (updateEntity dto updated)
  match dto.items with
  | none => .ok [save]
  | some items => .ok [fun current => current.editItems id fun _ => [],fun current => current.editItems id (· ++ items),save]

-- sellOrder, partlySellOrder, cancelOrder and rollbackOrderToWaiting: updateFull within their transaction.
def sellOrder (lookups : Lookups) (requester : Requester) (id : Nat) (dto : SellDto) (requestId : Option String) (depot : Depot) :
    Except RpcError Depot := do
  let row ← findOrder id depot
  let plan ← sellPlan lookups requester id row.order dto requestId
  let updated ← updateOrder lookups (some requester.id) plan.update row.order
  .ok (depot.record id row.order updated (applyWrites depot.orders [.update id (soldRow lookups.now updated plan.settlement)]))
def partlySellOrder (lookups : Lookups) (requester : Requester) (id : Nat) (dto : PartlySellDto) (requestId : Option String)
    (qrCodeToken : String) (depot : Depot) : Except RpcError Depot := do
  let row ← findOrder id depot
  let plan ← partlySellPlan lookups requester id row dto requestId qrCodeToken
  let updated ← updateOrder lookups (some requester.id) plan.update row.order
  let sold := applyWrites depot.orders [.update id (partlySoldRow lookups.now updated plan)]
  .ok ((depot.record id row.order updated sold).insertOrder ⟨plan.child,plan.childItems,none⟩)
def cancelOrder (lookups : Lookups) (requester : Requester) (id : Nat) (dto : SellDto) (requestId : Option String) (depot : Depot) :
    Except RpcError Depot := do
  let row ← findOrder id depot
  let plan ← cancelPlan lookups requester id row.order dto requestId
  let updated ← updateOrder lookups (some requester.id) plan.update row.order
  .ok (depot.record id row.order updated (applyWrites depot.orders [.update id (saveRow lookups.now updated)]))
def rollbackOrderToWaiting (lookups : Lookups) (requester : Requester) (id : Nat) (targetStatus requestId : Option String)
    (depot : Depot) : Except RpcError Depot := do
  let target ← rollbackTarget targetStatus
  let row ← findOrder id depot
  checkRollback requester row.order target
  if isSettledToHq row.settlement then
    .error (badRequest "Bu buyurtma summasi bosh ofisga to'langan — rollback mumkin emas")
  else
    let plan ← rollbackPlan lookups requester id row.order target requestId
    let children := byCreation (depot.orders.select (partialChild id))
    let items ← cascadeItems (mergeItems children row.items) row.items
    let updated ← updateOrder lookups (some requester.id) plan.update row.order
    .ok (depot.record id row.order updated
      (applyWrites depot.orders (rollbackWrites lookups.now id children row.order items updated)))

def markByProvider (now id : Nat) (action : ProviderAction) (depot : Depot) : Except RpcError Depot := do
  let row ← findOrder id depot
  if action.alreadyApplied row.order.status then .ok depot
  else
    let marked := applyWrites depot.orders [.update id (saveRow now (providerOrder now action row.order))]
    .ok (Depot.track {depot with orders:=marked} (id,⟨some row.order.status,action.target⟩))

def receivedReturn (depot : Depot) (id branchId : Nat) : Bool :=
  depot.items.any fun item => item.orderId == id && !item.isDeleted && (depot.batches.row item.batchId).any fun batch =>
    !batch.isDeleted && batch.direction == .back && batch.status == .received && batch.destinationBranchId == branchId
-- The return-to-market check: held by HQ or the home branch, or by a courier of the home branch.
def heldByHqOrHome (lookups : Lookups) (order : Order) : Bool :=
  order.holderType == .branch && order.holderBranchId.isSome &&
    (order.holderBranchId == lookups.hqBranchId || order.holderBranchId == order.homeBranchId)
def heldByHomeBranchCourier (order : Order) : Bool :=
  order.holderType == .courier && order.homeBranchId.isSome && order.holderBranchId == order.homeBranchId
def returnedOrder (order : Order) : Order :=
  {order with status:=.returnedToMarket,returnRequested:=false,holderType:=.market,holderBranchId:=none,holderCourierId:=none}
-- The goods are back with the market: both events are always written.
def closeCustody (id : Nat) (before : Order) (status : OrderStatus) (depot : Depot) : Depot :=
  {depot with
    tracking:=depot.tracking ++ [(id,⟨some before.status,status⟩)],
    custody:=depot.custody ++
      [(id,⟨some before.holderType,before.holderBranchId,before.holderCourierId,⟨.market,none,none⟩⟩)]}

def markReturnedToMarket (lookups : Lookups) (id : Nat) (depot : Depot) : Except RpcError Depot := do
  let row ← findOrder id depot
  let order := row.order
  if order.status = .returnedToMarket then .error (badRequest "Order allaqachon RETURNED_TO_MARKET holatida")
  else if isSold order.status then
    .error (badRequest ("Sotilgan/to'langan buyurtmani to'g'ridan-to'g'ri marketga qaytarib bo'lmaydi — " ++
      "avval rollback qiling (pul qaytariladi), keyin qaytaring"))
  else match order.branchId with
  | none => .error databaseError
  | some branchId =>
    let directHandoverAllowed := order.returnRequested && (heldByHqOrHome lookups order || heldByHomeBranchCourier order)
    if !receivedReturn depot id branchId && !directHandoverAllowed then
      .error (badRequest ("Order HQ yoki o'z filialiga qaytarib qabul qilingan bo'lishi kerak " ++
        "(return paket yoki to'g'ridan-to'g'ri topshirish orqali)"))
    else .ok (closeCustody id order .returnedToMarket
      {depot with orders:=(Write.update id (saveRow lookups.now (returnedOrder order))).apply depot.orders})

-- The cancelled-handover filter: cancelled orders of the market that HQ holds.
def handoverReady (marketId : Nat) (order : Order) : Bool :=
  order.marketId == marketId && order.status == .cancelled && order.holderType == .hq && order.canceledPostId.isNone && live order
def handedOverOrder (now requesterId : Nat) (order : Order) : Order :=
  {order with
    status:=.closed,holderType:=.market,holderBranchId:=none,holderCourierId:=none,returnRequested:=false,
    lastHandoverAt:=some now,lastHandoverBy:=some requesterId}
def handOver (now requesterId : Nat) : Table OrderRow → Depot → Depot
  | [],depot => depot
  | (id,row) :: rest,depot => handOver now requesterId rest (closeCustody id row.order .closed
      {depot with orders:=(Write.update id (saveRow now (handedOverOrder now requesterId row.order))).apply depot.orders})
-- `authorization` is what the checks of the requester, the market and its QR session answer.
def completeMarketCancelledHandover (now requesterId marketId : Nat) (orderIds : List Nat) (authorization : Except RpcError Unit)
    (depot : Depot) : Except RpcError Depot := do
  let orderIds := orderIds.eraseDups
  if orderIds.isEmpty then .error (badRequest "order_ids is required")
  else
    authorization
    let handedOverOrders := depot.orders.select fun key row => orderIds.contains key && handoverReady marketId row.order
    if handedOverOrders.length ≠ orderIds.length then
      .error (badRequest "Tanlangan orderlarning ayrimlari marketga tegishli emas, CANCELLED emas yoki HQda turmagan")
    else .ok (handOver now requesterId handedOverOrders depot)

-- The operations on orders and on the batches that move them.
inductive Op where
  | create (lookups : Lookups) (userBranch : Option Nat) (dto : CreateDto) (requester : Option Requester) (qrCodeToken : String)
  | updateFull (lookups : Lookups) (requesterId : Option Nat) (id : Nat) (dto : UpdateDto)
  | sellOrder (lookups : Lookups) (requester : Requester) (id : Nat) (dto : SellDto) (requestId : Option String)
  | partlySellOrder (lookups : Lookups) (requester : Requester) (id : Nat) (dto : PartlySellDto) (requestId : Option String)
      (qrCodeToken : String)
  | cancelOrder (lookups : Lookups) (requester : Requester) (id : Nat) (dto : SellDto) (requestId : Option String)
  | rollback (lookups : Lookups) (requester : Requester) (id : Nat) (targetStatus requestId : Option String)
  | markByProvider (now id : Nat) (action : ProviderAction)
  | markReturned (lookups : Lookups) (id : Nat)
  | handover (now requesterId marketId : Nat) (orderIds : List Nat) (authorization : Except RpcError Unit)
  | createTransfer (now : Nat) (input : TransferInput)
  | createReturn (now : Nat) (input : ReturnInput)
  | bulkAssign (now batchId : Nat) (orderIds : List Nat) (messageId : Option String)
  | bulkRemove (now batchId : Nat) (messageId : Option String)
  | send (now batchId : Nat) (random : String) (input : SendInput)
  | receive (now batchId : Nat) (requesterId : Option Nat)
  | receiveOrders (now batchId : Nat) (orderIds : List Nat) (requesterId : Option Nat)
  | cancelBatch (now batchId : Nat) (reason : String)
  | cancelBatches (now : Nat) (batchIds : List Nat) (removeOrderBindings : Bool)

def oneCommit (result : Except RpcError Depot) : Except RpcError (List (Depot → Depot)) := result.map fun next => [fun _ => next]
-- What an operation commits, one transaction after another, when it is not refused.
def Op.commits : Op → Depot → Except RpcError (List (Depot → Depot))
  | .create lookups userBranch dto requester qrCodeToken,depot => oneCommit (Batches.create lookups userBranch dto requester qrCodeToken depot)
  | .updateFull lookups requesterId id dto,depot => Batches.updateFull lookups requesterId id dto depot
  | .sellOrder lookups requester id dto requestId,depot => oneCommit (Batches.sellOrder lookups requester id dto requestId depot)
  | .partlySellOrder lookups requester id dto requestId qrCodeToken,depot =>
    oneCommit (Batches.partlySellOrder lookups requester id dto requestId qrCodeToken depot)
  | .cancelOrder lookups requester id dto requestId,depot => oneCommit (Batches.cancelOrder lookups requester id dto requestId depot)
  | .rollback lookups requester id targetStatus requestId,depot =>
    oneCommit (rollbackOrderToWaiting lookups requester id targetStatus requestId depot)
  | .markByProvider now id action,depot => oneCommit (Batches.markByProvider now id action depot)
  | .markReturned lookups id,depot => oneCommit (markReturnedToMarket lookups id depot)
  | .handover now requesterId marketId orderIds authorization,depot =>
    oneCommit (completeMarketCancelledHandover now requesterId marketId orderIds authorization depot)
  | .createTransfer now input,depot => oneCommit (createBranchTransferBatches now input depot)
  | .createReturn now input,depot => oneCommit (createBranchReturnBatches now input depot)
  | .bulkAssign now batchId orderIds messageId,depot => oneCommit (bulkAssignBatch now batchId orderIds messageId depot)
  | .bulkRemove now batchId messageId,depot => oneCommit (bulkRemoveFromBatch now batchId messageId depot)
  | .send now batchId random input,depot => sendBranchTransferBatch now batchId random input depot
  | .receive now batchId requesterId,depot => oneCommit (receiveBranchTransferBatch now batchId requesterId depot)
  | .receiveOrders now batchId orderIds requesterId,depot => receiveBranchTransferBatchOrders now batchId orderIds requesterId depot
  | .cancelBatch now batchId reason,depot => oneCommit (cancelBranchTransferBatch now batchId reason depot)
  | .cancelBatches now batchIds removeOrderBindings,depot => oneCommit (cancelBranchTransferBatches now batchIds removeOrderBindings depot)

def applyAll (commits : List (Depot → Depot)) (depot : Depot) : Depot := commits.foldl (fun current commit => commit current) depot
-- An operation carried out to its end, and one that fails after `stop` of its commits.
def Op.perform (op : Op) (depot : Depot) : Depot :=
  match op.commits depot with
  | .ok commits => applyAll commits depot
  | .error _ => depot
def Op.performUntil (op : Op) (stop : Nat) (depot : Depot) : Depot :=
  match op.commits depot with
  | .ok commits => applyAll (commits.take stop) depot
  | .error _ => depot

def emptyDepot : Depot := ⟨[],[],[],[],[],[],1,1⟩
def performAll : Depot → List Op → Depot := Runs.runFrom fun depot op => op.perform depot
def MeetsAll (cond : Depot → Op → Prop) : Depot → List Op → Prop := Runs.Meets (fun depot op => op.perform depot) cond

end Elchi.Batches
