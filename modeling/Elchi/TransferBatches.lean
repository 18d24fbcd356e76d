import Elchi.OrderWriters
namespace Elchi.Batches
open Orders RowLock

inductive BatchStatus where
  | pending | sent | received | cancelled
deriving DecidableEq, Repr
inductive BatchDirection where
  | forward | back
deriving DecidableEq, Repr

-- branch_transfer_batches; the QR token names a batch for the scanner only.
structure Batch where
  requestKey : String
  sourceBranchId : Nat
  destinationBranchId : Nat
  direction : BatchDirection
  targetRegionId : Nat
  status : BatchStatus
  orderCount : Nat
  totalPrice : Int
  vehiclePlate : Option String
  driverName : Option String
  driverPhone : Option String
  sentAt : Option Nat
  receivedAt : Option Nat
  receivedByUserId : Option Nat
  cancelledAt : Option Nat
  isDeleted : Bool
  createdAt : Nat
deriving DecidableEq, Repr

-- branch_transfer_batch_items, unique in batch and order, rows marked deleted included.
structure BatchItem where
  batchId : Nat
  orderId : Nat
  snapshotPrice : Int
  snapshotMarketId : Nat
  sentAt : Option Nat
  isDeleted : Bool
deriving DecidableEq, Repr

structure TrackingEvent where
  fromStatus : Option OrderStatus
  toStatus : OrderStatus
deriving DecidableEq, Repr
structure CustodyEvent where
  fromHolderType : Option OrderHolderType
  fromBranchId : Option Nat
  fromCourierId : Option Nat
  holder : Holder
deriving DecidableEq, Repr

-- The tables of the order service that orders and their transfers live in. The inbox holds
-- the commands and message ids already taken.
structure Depot where
  orders : Table OrderRow
  batches : Table Batch
  items : List BatchItem
  inbox : List (String × String)
  tracking : Journal TrackingEvent
  custody : Journal CustodyEvent
  nextOrderId : Nat
  nextBatchId : Nat

def conflict (message : String) : RpcError := ⟨409,message⟩
-- A violated constraint of the database that no handler translates.
def databaseError : RpcError := ⟨500,"Internal server error"⟩

def live (order : Order) : Bool := !order.isDeleted && order.deletedAt.isNone
def holderOf (order : Order) : Holder := ⟨order.holderType,order.holderBranchId,order.holderCourierId⟩
def liveIn (batchId : Nat) (item : BatchItem) : Bool := item.batchId == batchId && !item.isDeleted
def Depot.liveItems (depot : Depot) (batchId : Nat) : List BatchItem := depot.items.filter (liveIn batchId)
-- find({ id: In(ids), isDeleted: false })
def Depot.ordersIn (depot : Depot) (ids : List Nat) : Table OrderRow :=
  depot.orders.select fun key row => ids.contains key && live row.order

-- UPDATE orders SET ... WHERE ..., and how many rows it affects.
def updateWhere (now : Nat) (condition : Nat → Order → Bool) (set : Order → Order) (orders : Table OrderRow) : Table OrderRow :=
  orders.map fun entry => (entry.1,setColumns now (condition entry.1) set entry.2)
def affected (condition : Nat → Order → Bool) (orders : Table OrderRow) : Nat :=
  (orders.filter fun entry => !entry.2.order.isDeleted && condition entry.1 entry.2.order).length

def tracked (status : OrderStatus) (orders : Table OrderRow) : Journal TrackingEvent :=
  orders.filterMap fun entry => if entry.2.order.status = status then none else some (entry.1,⟨some entry.2.order.status,status⟩)
def handed (holder : Holder) (before : Order) : List CustodyEvent :=
  if holderOf before = holder then [] else [⟨some before.holderType,before.holderBranchId,before.holderCourierId,holder⟩]

-- normalizeTransferRequestKey and normalizeInboxMessageId
def keyCharacter (c : Char) : Bool := c.isAlphanum || c == '_' || c == '-'
def normalizeTransferRequestKey (value : Option String) : Except RpcError String :=
  let normalized := jsTrim (value.getD "")
  if normalized = "" then .error (badRequest "request_key is required")
  else if 8 ≤ normalized.length && normalized.length ≤ 80 && normalized.toList.all keyCharacter then .ok normalized
  else .error (badRequest "request_key must match /^[A-Za-z0-9_-]\x7b8,80\x7d$/")
def normalizeInboxMessageId (value : Option String) : Except RpcError String :=
  let normalized := jsTrim (value.getD "")
  if normalized = "" then .error (badRequest "message_id is required")
  else if 8 ≤ normalized.length && normalized.length ≤ 128 && normalized.toList.all fun c => keyCharacter c || c == ':' then .ok normalized
  else .error (badRequest "message_id must match /^[A-Za-z0-9:_-]\x7b8,128\x7d$/")

-- A new batch is counted as its orders are bound. Source branch and request key are unique
-- together, over every batch.
def newBatch (now sourceBranchId destinationBranchId : Nat) (direction : BatchDirection) (targetRegionId : Nat) (requestKey : String) :
    Batch :=
  {requestKey:=requestKey,sourceBranchId:=sourceBranchId,destinationBranchId:=destinationBranchId,direction:=direction,
   targetRegionId:=targetRegionId,status:=.pending,orderCount:=0,totalPrice:=0,vehiclePlate:=none,driverName:=none,
   driverPhone:=none,sentAt:=none,receivedAt:=none,receivedByUserId:=none,cancelledAt:=none,isDeleted:=false,createdAt:=now}
def Depot.keyTaken (depot : Depot) (sourceBranchId : Nat) (requestKey : String) : Bool :=
  depot.batches.any fun entry => entry.2.sourceBranchId == sourceBranchId && entry.2.requestKey == requestKey
def Depot.insertBatch (depot : Depot) (batch : Batch) : Depot :=
  {depot with batches:=depot.batches.put depot.nextBatchId batch,nextBatchId:=depot.nextBatchId+1}
def saveNewBatch (batch : Batch) (depot : Depot) : Except RpcError (Nat × Depot) :=
  if depot.keyTaken batch.sourceBranchId batch.requestKey then .error databaseError
  else .ok (depot.nextBatchId,depot.insertBatch batch)
def Depot.saveBatch (depot : Depot) (batchId : Nat) (batch : Batch) : Depot :=
  {depot with batches:=depot.batches.put batchId batch}

-- A request is answered from its batches while one of them is not cancelled.
def Depot.alreadyRequested (depot : Depot) (sourceBranchId : Nat) (requestKey : String) : Bool :=
  depot.batches.any fun entry => entry.2.sourceBranchId == sourceBranchId && entry.2.requestKey == requestKey &&
    [.pending,.sent,.received].contains entry.2.status && !entry.2.isDeleted
def Depot.pendingBatches (depot : Depot) (sourceBranchId destinationBranchId : Nat) (direction : BatchDirection) : Table Batch :=
  depot.batches.select fun _ batch => batch.sourceBranchId == sourceBranchId && batch.destinationBranchId == destinationBranchId &&
    batch.direction == direction && batch.status == .pending && !batch.isDeleted

def unbound (ids : List Nat) (id : Nat) (order : Order) : Bool := ids.contains id && order.currentBatchId.isNone
def bindTo (batchId : Nat) (order : Order) : Order := {order with currentBatchId:=some batchId}
def unbind (order : Order) : Order := {order with currentBatchId:=none}
def bindOrders (now batchId : Nat) (ids : List Nat) (refused : String) (depot : Depot) : Except RpcError Depot :=
  if affected (unbound ids) depot.orders = ids.length then
    .ok {depot with orders:=updateWhere now (unbound ids) (bindTo batchId) depot.orders}
  else .error (conflict refused)

def itemOf (batchId : Nat) (entry : Nat × OrderRow) : BatchItem :=
  ⟨batchId,entry.1,entry.2.order.totalPrice,entry.2.order.marketId,none,false⟩
def countIn (orders : Table OrderRow) (batch : Batch) : Batch :=
  {batch with
    orderCount:=batch.orderCount + orders.length,
    totalPrice:=batch.totalPrice + (orders.map fun entry => entry.2.order.totalPrice).sum}
-- One group of orders goes into one batch: bound, counted and listed.
def assignOrders (now batchId : Nat) (orders : Table OrderRow) (depot : Depot) : Except RpcError Depot := do
  let bound ← bindOrders now batchId (orders.map (·.1)) "Some orders are already assigned to another batch" depot
  if orders.any fun entry => depot.items.any fun item => item.batchId == batchId && item.orderId == entry.1 then
    .error databaseError
  else .ok {bound with
    batches:=(Write.update batchId (countIn orders)).apply bound.batches,items:=bound.items ++ orders.map (itemOf batchId)}

-- Orders by region or by branch; those without one are left out.
def groupBy (group : Order → Option Nat) (orders : Table OrderRow) : List (Nat × Table OrderRow) :=
  (orders.filterMap fun entry => group entry.2.order).eraseDups.map fun value =>
    (value,orders.filter fun entry => group entry.2.order == some value)
-- `place` finds the batch of a group or creates it.
def assignGroups (now : Nat) (place : Nat → Table OrderRow → Depot → Except RpcError (Nat × Depot)) :
    List (Nat × Table OrderRow) → Depot → Except RpcError Depot
  | [],depot => .ok depot
  | (group,orders) :: rest,depot => do
    let placed ← place group orders depot
    let assigned ← assignOrders now placed.1 orders placed.2
    assignGroups now place rest assigned

structure TransferInput where
  sourceBranchId : Nat
  destinationBranchId : Nat
  orderIds : List Nat := []
  direction : BatchDirection
  requestKey : Option String
deriving DecidableEq, Repr

def maxRegionalPendingBatches : Nat := 13
def unassignedNew (sourceBranchId : Nat) (ids : List Nat) (key : Nat) (row : OrderRow) : Bool :=
  row.order.branchId == some sourceBranchId && row.order.currentBatchId.isNone && live row.order && row.order.status == .new &&
    (ids.isEmpty || ids.contains key)
-- The oldest pending batch of every region is reused.
def placeInRegion (now : Nat) (input : TransferInput) (requestKey : String) (pending : Table Batch) (regionId : Nat)
    (_orders : Table OrderRow) (depot : Depot) : Except RpcError (Nat × Depot) :=
  match pending.find? fun entry => entry.2.targetRegionId == regionId with
  | some (batchId,_) => .ok (batchId,depot)
  | none => saveNewBatch (newBatch now input.sourceBranchId input.destinationBranchId input.direction regionId requestKey) depot

def createBranchTransferBatches (now : Nat) (input : TransferInput) (depot : Depot) : Except RpcError Depot := do
  let requestKey ← normalizeTransferRequestKey input.requestKey
  if depot.alreadyRequested input.sourceBranchId requestKey then .ok depot
  else
    let selectedOrderIds := input.orderIds.eraseDups
    let unassignedOrders := byCreation (depot.orders.select (unassignedNew input.sourceBranchId selectedOrderIds))
    if !selectedOrderIds.isEmpty && unassignedOrders.length != selectedOrderIds.length then
      .error (badRequest "Some orders are not found, not NEW, or already assigned to another batch")
    else
      let grouped := groupBy (·.regionId) unassignedOrders
      let pending := (depot.pendingBatches input.sourceBranchId input.destinationBranchId input.direction).mergeSort
        fun left right => left.2.createdAt ≤ right.2.createdAt
      let pendingRegions := (pending.map (·.2.targetRegionId)).eraseDups
      if grouped.isEmpty then .error (badRequest "Unassigned orders for transfer not found")
      else if pendingRegions.length + (grouped.filter fun entry => !pendingRegions.contains entry.1).length > maxRegionalPendingBatches then
        .error (badRequest ("Maximum " ++ toString maxRegionalPendingBatches ++ " ta pending transfer batch bo‘lishi mumkin"))
      else assignGroups now (placeInRegion now input requestKey pending) grouped depot

structure ReturnInput where
  sourceBranchId : Nat
  orderIds : List Nat
  requestKey : Option String
deriving DecidableEq, Repr

def resolveReturnDestination (order : Order) : Option Nat := order.homeBranchId.or order.branchId
def ineligibleReturn (status : OrderStatus) : Bool := [.sold,.paid,.partlyPaid,.returnedToMarket,.closed].contains status
def idList (ids : List Nat) : String := String.intercalate ", " (ids.map toString)
-- The newest pending return batch of the branch and region is reused.
def placeReturn (now : Nat) (input : ReturnInput) (requestKey : String) (destinationBranchId : Nat) (orders : Table OrderRow)
    (depot : Depot) : Except RpcError (Nat × Depot) :=
  match orders.head?.bind fun entry => entry.2.order.regionId with
  | none => .error (badRequest ("Orders for destination branch " ++ toString destinationBranchId ++ " must have region_id"))
  | some targetRegionId =>
    let pending := (depot.pendingBatches input.sourceBranchId destinationBranchId .back).mergeSort
      fun left right => right.2.createdAt ≤ left.2.createdAt
    match pending.find? fun entry => entry.2.targetRegionId == targetRegionId with
    | some (batchId,_) => .ok (batchId,depot)
    | none => saveNewBatch (newBatch now input.sourceBranchId destinationBranchId .back targetRegionId requestKey) depot

def createBranchReturnBatches (now : Nat) (input : ReturnInput) (depot : Depot) : Except RpcError Depot := do
  let requestKey ← normalizeTransferRequestKey input.requestKey
  let orderIds := input.orderIds.eraseDups
  if orderIds.isEmpty then .error (badRequest "order_ids is required")
  else if depot.alreadyRequested input.sourceBranchId requestKey then .ok depot
  else
    let orders := depot.orders.select fun key row => orderIds.contains key && row.order.currentBatchId.isNone && live row.order
    let refused := (orders.filter fun entry => ineligibleReturn entry.2.order.status).map (·.1)
    if orders.length ≠ orderIds.length then
      .error (badRequest "Some orders are not found or already assigned to another batch")
    else if !refused.isEmpty then
      .error (badRequest ("Quyidagi buyurtmalar holati return paketiga mos emas (avval rollback qiling): " ++ idList refused))
    else if orders.any fun entry => resolveReturnDestination entry.2.order == some input.sourceBranchId then
      .error (badRequest ("Bu order allaqachon o'z (home) filialida — uni return paket bilan emas, " ++
        "to'g'ridan-to'g'ri market egasiga topshiring"))
    else match orders.find? fun entry => (resolveReturnDestination entry.2.order).isNone with
    | some (id,_) => .error (badRequest ("Order " ++ toString id ++ " has no home branch_id"))
    | none => assignGroups now (placeReturn now input requestKey) (groupBy resolveReturnDestination orders) depot

-- No look at the status; the history row refers to the batch, so that a missing one fails.
def cancelBranchTransferBatches (now : Nat) (batchIds : List Nat) (removeOrderBindings : Bool) (depot : Depot) : Except RpcError Depot :=
  if batchIds.isEmpty then .error (badRequest "batch_ids is required")
  else if batchIds.any fun id => (depot.batches.row id).isNone then .error databaseError
  else .ok {depot with
    batches:=depot.batches.map fun entry => (entry.1,
      if batchIds.contains entry.1 && !entry.2.isDeleted then {entry.2 with status:=.cancelled,cancelledAt:=some now} else entry.2),
    orders:=if removeOrderBindings then
        updateWhere now (fun _ order => order.currentBatchId.any fun id => batchIds.contains id) unbind depot.orders
      else depot.orders}

-- The bulk commands of the branch service write the orders' column and no item or batch.
def bulkAssignBatch (now batchId : Nat) (orderIds : List Nat) (messageId : Option String) (depot : Depot) : Except RpcError Depot := do
  let messageId ← normalizeInboxMessageId messageId
  let orderIds := orderIds.eraseDups
  if orderIds.isEmpty then .error (badRequest "order_ids is required")
  else if depot.inbox.contains ("order.bulk_assign_batch",messageId) then .ok depot
  else
    let taken := {depot with inbox:=("order.bulk_assign_batch",messageId) :: depot.inbox}
    bindOrders now batchId orderIds "Some orders are not found or already assigned to another batch" taken
def bulkRemoveFromBatch (now batchId : Nat) (messageId : Option String) (depot : Depot) : Except RpcError Depot := do
  let messageId ← normalizeInboxMessageId messageId
  if depot.inbox.contains ("order.bulk_remove_from_batch",messageId) then .ok depot
  else .ok {depot with
    inbox:=("order.bulk_remove_from_batch",messageId) :: depot.inbox,
    orders:=updateWhere now (fun _ order => order.currentBatchId == some batchId) unbind depot.orders}

def findBatch (batchId : Nat) (depot : Depot) : Except RpcError Batch :=
  match depot.batches.row batchId with
  | some batch => if batch.isDeleted then .error (notFound "Transfer batch not found") else .ok batch
  | none => .error (notFound "Transfer batch not found")

structure SendInput where
  orderIds : List Nat
  vehiclePlate : String
  driverName : String
  driverPhone : String
deriving DecidableEq, Repr

def checkSendInput (input : SendInput) : Except RpcError Unit :=
  if input.orderIds.isEmpty then .error (badRequest "orderIds is required")
  else if jsTrim input.vehiclePlate = "" ∨ jsTrim input.driverName = "" ∨ jsTrim input.driverPhone = "" then
    .error (badRequest "Avtomobil ma'lumotlari majburiy")
  else .ok ()
def checkSend (batch : Batch) : Except RpcError Unit :=
  match batch.status with
  | .cancelled => .error (badRequest "Bekor qilingan paketni jo'natib bo'lmaydi")
  | .received => .error (badRequest "Qabul qilingan paketni qayta jo'natib bo'lmaydi")
  | .pending => .ok ()
  | .sent => .ok ()

-- The selected items that are not sent yet.
def itemsToMark (items : List BatchItem) (orderIds : List Nat) : Except RpcError (List BatchItem) :=
  let selectedItems := orderIds.filterMap fun id => items.find? fun item => item.orderId == id
  let toMark := selectedItems.filter fun item => item.sentAt.isNone
  if selectedItems.length ≠ orderIds.length then .error (badRequest "Some orderIds are not part of this batch")
  else if toMark.isEmpty then .error (badRequest "Tanlangan orderlar allaqachon jo'natilgan")
  else .ok toMark

def markItems (now batchId : Nat) (ids : List Nat) (items : List BatchItem) : List BatchItem :=
  items.map fun item => if item.batchId = batchId ∧ item.orderId ∈ ids then {item with sentAt:=some now} else item
def moveItems (batchId sentBatchId : Nat) (ids : List Nat) (items : List BatchItem) : List BatchItem :=
  items.map fun item =>
    if item.batchId = batchId ∧ item.orderId ∈ ids ∧ item.isDeleted = false then {item with batchId:=sentBatchId} else item
def snapshotTotal (items : List BatchItem) : Int := (items.map (·.snapshotPrice)).sum

def sentOrder (batch : Batch) (sentBatchId : Nat) (order : Order) : Order :=
  {order with currentBatchId:=some sentBatchId,status:=if batch.direction = .forward then .onTheRoad else order.status}
def sendOrders (now batchId sentBatchId : Nat) (batch : Batch) (ids : List Nat) (depot : Depot) : Depot :=
  let bound := fun (id : Nat) (order : Order) => ids.contains id && order.currentBatchId == some batchId
  {depot with orders:=updateWhere now bound (sentOrder batch sentBatchId) depot.orders}
def Depot.track (depot : Depot) (event : Nat × TrackingEvent) : Depot := {depot with tracking:=depot.tracking ++ [event]}
-- The orders as read before the update, in the order of the marked items.
def sendEvents (batch : Batch) (ids : List Nat) (depot : Depot) : Journal TrackingEvent :=
  if batch.direction = .forward then
    tracked .onTheRoad (ids.filterMap fun id => (depot.ordersIn ids).find? fun entry => entry.1 == id)
  else []

def sentBatch (now : Nat) (input : SendInput) (batch : Batch) : Batch :=
  {batch with
    status:=.sent,sentAt:=some now,vehiclePlate:=some (jsTrim input.vehiclePlate),driverName:=some (jsTrim input.driverName),
    driverPhone:=some (jsTrim input.driverPhone)}
-- The part that leaves gets a batch of its own, under a key of the batch, the clock and random hex digits.
def splitKey (now batchId : Nat) (random : String) : String :=
  "split_send_" ++ toString batchId ++ "_" ++ toString now ++ "_" ++ random
def splitBatch (now batchId : Nat) (random : String) (input : SendInput) (toMark : List BatchItem) (batch : Batch) : Batch :=
  sentBatch now input {newBatch now batch.sourceBranchId batch.destinationBranchId batch.direction batch.targetRegionId
    (splitKey now batchId random) with orderCount:=toMark.length,totalPrice:=snapshotTotal toMark}
def remainingBatch (remaining : List BatchItem) (batch : Batch) : Batch :=
  {batch with
    status:=.pending,sentAt:=none,orderCount:=remaining.length,totalPrice:=snapshotTotal remaining,vehiclePlate:=none,
    driverName:=none,driverPhone:=none}

def markSent (now batchId : Nat) (ids : List Nat) (depot : Depot) : Depot := {depot with items:=markItems now batchId ids depot.items}
def moveTo (batchId sentBatchId : Nat) (ids : List Nat) (depot : Depot) : Depot :=
  {depot with items:=moveItems batchId sentBatchId ids depot.items}
def trackEach (events : Journal TrackingEvent) : List (Depot → Depot) := events.map fun event current => current.track event
-- Each write of a send is committed by itself, in this order. `batch` is the batch as read.
def sendBatch (now batchId : Nat) (random : String) (input : SendInput) (batch : Batch) (depot : Depot) :
    Except RpcError (List (Depot → Depot)) := do
  let toMark ← itemsToMark (depot.liveItems batchId) input.orderIds.eraseDups
  let ids := toMark.map (·.orderId)
  let refreshedItems := (markSent now batchId ids depot).liveItems batchId
  let events := trackEach (sendEvents batch ids depot)
  let sentBatchId := depot.nextBatchId
  if refreshedItems.all fun item => item.sentAt.isSome then
    .ok ([markSent now batchId ids,(·.saveBatch batchId (sentBatch now input batch)),sendOrders now batchId batchId batch ids] ++ events)
  else if depot.keyTaken batch.sourceBranchId (splitKey now batchId random) then .ok [markSent now batchId ids]
  else
    let remainingItems := refreshedItems.filter fun item => item.sentAt.isNone
    .ok ([markSent now batchId ids,(·.insertBatch (splitBatch now batchId random input toMark batch)),moveTo batchId sentBatchId ids,
      (·.saveBatch batchId (remainingBatch remainingItems batch)),sendOrders now batchId sentBatchId batch ids] ++ events)
def sendBranchTransferBatch (now batchId : Nat) (random : String) (input : SendInput) (depot : Depot) :
    Except RpcError (List (Depot → Depot)) := do
  checkSendInput input
  let batch ← findBatch batchId depot
  checkSend batch
  sendBatch now batchId random input batch depot

def checkReceive (batch : Batch) : Except RpcError Unit :=
  match batch.status with
  | .received => .error (badRequest "Bu paket allaqachon qabul qilingan")
  | .pending => .error (badRequest "Hali jo'natilmagan paketni qabul qilib bo'lmaydi")
  | .cancelled => .error (badRequest "Bekor qilingan paketni qabul qilib bo'lmaydi")
  | .sent => .ok ()
def receivedBatch (now requesterId : Nat) (batch : Batch) : Batch :=
  {batch with status:=.received,receivedAt:=some now,receivedByUserId:=some requesterId}

-- The whole batch: orders of the target region are received, the others wait for the next leg.
def receiveBatch (now requesterId batchId : Nat) (batch : Batch) (depot : Depot) : Depot :=
  let orderIds := (depot.liveItems batchId).map (·.orderId)
  let orders := depot.ordersIn orderIds
  let isLocal := fun (entry : Nat × OrderRow) => entry.2.order.regionId == some batch.targetRegionId
  let localOrders := orders.filter isLocal
  let transitOrders := orders.filter fun entry => !isLocal entry
  let holder : Holder := ⟨.branch,some batch.destinationBranchId,none⟩
  let arrived := updateWhere now (fun id _ => orderIds.contains id) (atBranch now requesterId batch.destinationBranchId) depot.orders
  let received := updateWhere now (fun id _ => (localOrders.map (·.1)).contains id) (withStatus .received) arrived
  {depot with
    batches:=depot.batches.put batchId (receivedBatch now requesterId batch),
    orders:=updateWhere now (fun id _ => (transitOrders.map (·.1)).contains id) (withStatus .new) received,
    tracking:=depot.tracking ++ (tracked .received localOrders ++ tracked .new transitOrders),
    custody:=depot.custody ++ orders.flatMap fun entry => (handed holder entry.2.order).map (entry.1,·)}
def receiveBranchTransferBatch (now batchId : Nat) (requesterId : Option Nat) (depot : Depot) : Except RpcError Depot := do
  let batch ← findBatch batchId depot
  checkReceive batch
  .ok (receiveBatch now (requesterId.getD 0) batchId batch depot)

def checkScanned (orderIds : List Nat) : Except RpcError Unit :=
  if orderIds.isEmpty then .error (badRequest "order_ids bo'sh bo'lmasligi kerak") else .ok ()
def checkReceiveOrders (batch : Batch) : Except RpcError Unit :=
  match batch.status with
  | .received => .error (badRequest "Bu paket allaqachon qabul qilingan")
  | .pending => .error (badRequest "Hali jo'natilmagan paketdan qabul qilib bo'lmaydi")
  | .cancelled => .error (badRequest "Bekor qilingan paketdan qabul qilib bo'lmaydi")
  | .sent => .ok ()

-- The scanned items; every scanned order must be one of them, and sent.
def scannedItems (items : List BatchItem) (orderIds : List Nat) : Except RpcError (List BatchItem) :=
  let selectedItems := items.filter fun item => orderIds.contains item.orderId
  let missing := orderIds.filter fun id => !selectedItems.any fun item => item.orderId == id
  let notSent := (selectedItems.filter fun item => item.sentAt.isNone).map (·.orderId)
  if selectedItems.isEmpty then .error (badRequest "Berilgan orderlar bu batch ichida topilmadi")
  else if !missing.isEmpty then .error (badRequest ("Quyidagi orderlar batch ichida yo'q: " ++ idList missing))
  else if !notSent.isEmpty then .error (badRequest ("Quyidagi orderlar hali jo'natilmagan: " ++ idList notSent))
  else .ok selectedItems

def deleteItems (batchId : Nat) (ids : List Nat) (items : List BatchItem) : List BatchItem :=
  items.map fun item =>
    if item.batchId = batchId ∧ item.orderId ∈ ids ∧ item.isDeleted = false then {item with isDeleted:=true} else item
-- The custody event of a scanned order whose row the read before the update did not find.
def unknownHanded (holder : Holder) : CustodyEvent := ⟨none,none,none,holder⟩

def receivedOrder (now requesterId branchId : Nat) (order : Order) : Order :=
  withStatus .received (atBranch now requesterId branchId order)
-- Scanned orders are received; what is left in the batch is taken out of it.
def receiveSelected (now requesterId batchId : Nat) (batch : Batch) (selectedItems : List BatchItem) (depot : Depot) : Depot :=
  let selectedOrderIds := selectedItems.map (·.orderId)
  let holder : Holder := ⟨.branch,some batch.destinationBranchId,none⟩
  let priorOrders := depot.ordersIn selectedOrderIds
  let prior := fun id => priorOrders.find? fun entry => entry.1 == id
  let remainingOrderIds := ((depot.liveItems batchId).filter fun item => !selectedOrderIds.contains item.orderId).map (·.orderId)
  let remainingPriorOrders := if batch.direction = .forward then depot.ordersIn remainingOrderIds else []
  let arrived := updateWhere now (fun id _ => selectedOrderIds.contains id)
    (receivedOrder now requesterId batch.destinationBranchId) depot.orders
  {depot with
    batches:=depot.batches.put batchId (receivedBatch now requesterId
      {batch with orderCount:=selectedItems.length,totalPrice:=snapshotTotal selectedItems}),
    items:=deleteItems batchId remainingOrderIds (deleteItems batchId selectedOrderIds depot.items),
    orders:=updateWhere now (fun id _ => remainingOrderIds.contains id) (detached (batch.direction == .forward)) arrived,
    tracking:=depot.tracking ++ (tracked .received (selectedOrderIds.filterMap prior) ++ tracked .new remainingPriorOrders),
    custody:=depot.custody ++ selectedOrderIds.flatMap fun id => match prior id with
      | some entry => (handed holder entry.2.order).map (id,·)
      | none => [(id,unknownHanded holder)]}

-- After the commit what was left is put into batches again, in the same direction; when that
-- is refused the receipt stands.
def rebatch (now batchId : Nat) (batch : Batch) (remainingOrderIds : List Nat) (depot : Depot) : Except RpcError Depot :=
  let key := fun (head : String) => some (head ++ toString batchId ++ "_" ++ toString now)
  if remainingOrderIds.isEmpty then .ok depot
  else match batch.direction with
  | .back => createBranchReturnBatches now
      {sourceBranchId:=batch.sourceBranchId,orderIds:=remainingOrderIds,requestKey:=key "rtn_from_partial_receive_"} depot
  | .forward => createBranchTransferBatches now
      {sourceBranchId:=batch.sourceBranchId,destinationBranchId:=batch.destinationBranchId,orderIds:=remainingOrderIds,
       direction:=.forward,requestKey:=key "fwd_from_partial_receive_"} depot
def orKeep (depot : Depot) : Except RpcError Depot → Depot
  | .ok next => next
  | .error _ => depot
def receiveBatchOrders (now requesterId batchId : Nat) (orderIds : List Nat) (batch : Batch) (depot : Depot) :
    Except RpcError (List (Depot → Depot)) := do
  let selectedItems ← scannedItems (depot.liveItems batchId) orderIds.eraseDups
  let selectedOrderIds := selectedItems.map (·.orderId)
  let remainingOrderIds := ((depot.liveItems batchId).filter fun item => !selectedOrderIds.contains item.orderId).map (·.orderId)
  .ok [receiveSelected now requesterId batchId batch selectedItems,
    fun current => orKeep current (rebatch now batchId batch remainingOrderIds current)]
def receiveBranchTransferBatchOrders (now batchId : Nat) (orderIds : List Nat) (requesterId : Option Nat) (depot : Depot) :
    Except RpcError (List (Depot → Depot)) := do
  checkScanned orderIds
  let batch ← findBatch batchId depot
  checkReceiveOrders batch
  receiveBatchOrders now (requesterId.getD 0) batchId orderIds batch depot

-- A JavaScript string counts UTF-16 units.
def jsLength (text : String) : Nat := (text.toList.map fun c => if c.toNat < 65536 then 1 else 2).sum
def checkReason (reason : String) : Except RpcError Unit :=
  if jsLength (jsTrim reason) < 10 then
    .error (badRequest "Bekor qilish sababi kamida 10 ta belgidan iborat bo'lishi kerak")
  else .ok ()
def checkCancel (batch : Batch) : Except RpcError Unit :=
  match batch.status with
  | .received => .error (badRequest "RECEIVED paketni bekor qilib bo'lmaydi")
  | .cancelled => .error (badRequest "Bekor qilingan paketni qayta bekor qilib bo'lmaydi")
  | .pending => .ok ()
  | .sent => .ok ()
def cancelledBatch (now : Nat) (batch : Batch) : Batch := {batch with status:=.cancelled,cancelledAt:=some now}
def cancelBatch (now batchId : Nat) (batch : Batch) (depot : Depot) : Depot :=
  let batchOrders := depot.orders.select fun _ row => row.order.currentBatchId == some batchId && live row.order
  let shouldRequeue := batch.direction == .forward && !batchOrders.isEmpty
  {depot with
    batches:=depot.batches.put batchId (cancelledBatch now batch),
    orders:=updateWhere now (fun _ order => order.currentBatchId == some batchId) (detached shouldRequeue) depot.orders,
    tracking:=depot.tracking ++ if shouldRequeue then tracked .new batchOrders else []}
def cancelBranchTransferBatch (now batchId : Nat) (reason : String) (depot : Depot) : Except RpcError Depot := do
  checkReason reason
  let batch ← findBatch batchId depot
  checkCancel batch
  .ok (cancelBatch now batchId batch depot)

end Elchi.Batches
