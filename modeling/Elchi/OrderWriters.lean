import Elchi.OrderRollback
namespace Elchi.Orders
open RowLock

def ProviderAction.target : ProviderAction → OrderStatus
  | .sell => .sold
  | .cancel => .cancelled
  | .handBack => .closed
def ProviderAction.alreadyApplied (action : ProviderAction) (status : OrderStatus) : Bool :=
  match action with
  | .sell => isSold status
  | .cancel => [.cancelled,.cancelledSent,.closed].contains status
  | .handBack => status == .closed

def providerOrder (now : Nat) (action : ProviderAction) (order : Order) : Order :=
  {order with
    status:=action.target,
    soldAt:=if action = .sell then some (order.soldAt.getD now) else order.soldAt}

-- markByProvider: a status-only save of the unlocked reading, with no finance event.
def markByProvider (now id : Nat) (action : ProviderAction) : Request :=
  findById id fun row =>
    if action.alreadyApplied row.order.status then success 200 "order already in target state (idempotent)"
    else .commit {call:=.provider now id action,loaded:=some row.order}
      [.update id (saveRow now (providerOrder now action row.order))] []
      (success 200 ("order marked " ++ (match action with
        | .sell => "sell"
        | .cancel => "cancel"
        | .handBack => "return") ++ " by provider"))

-- A raw UPDATE ... WHERE: it sees no row marked deleted and moves the update time.
def setColumns (now : Nat) (condition : Order → Bool) (set : Order → Order) (row : OrderRow) : OrderRow :=
  if !row.order.isDeleted && condition row.order then {row with order:={set row.order with updatedAt:=now}} else row
def setWhere (now : Nat) (ids : List Nat) (condition : Order → Bool) (set : Order → Order) : List (Write OrderRow) :=
  ids.map fun id => .update id (setColumns now condition set)
def anyOrder (_order : Order) : Bool := true

def withStatus (status : OrderStatus) (order : Order) : Order := {order with status:=status}
def atBranch (now requesterId branchId : Nat) (order : Order) : Order :=
  {order with
    currentBatchId:=none,branchId:=some branchId,holderType:=.branch,holderBranchId:=some branchId,holderCourierId:=none,
    lastHandoverAt:=some now,lastHandoverBy:=some requesterId}
def detached (requeue : Bool) (order : Order) : Order :=
  {order with currentBatchId:=none,status:=if requeue then .new else order.status}

-- The order's side of the transfer batch operations, once the batch and its items passed their checks.
def sendBranchTransferBatch (now : Nat) (batch : TransferBatch) (sentBatchId : Nat) (orderIds : List Nat) : Request :=
  .commit {call:=.sendBatch now batch sentBatchId orderIds}
    (setWhere now orderIds (fun order => order.currentBatchId == some batch.id) fun order =>
      {order with currentBatchId:=some sentBatchId,status:=if batch.forward then .onTheRoad else order.status})
    [] (success 200 "Transfer batch sent")

-- The whole batch: orders of the target region are received, the others wait for the next leg.
def receiveBranchTransferBatch (now requesterId : Nat) (batch : TransferBatch) (orderIds : List Nat) : Request :=
  .find (fun key row => orderIds.contains key && !row.order.isDeleted && row.order.deletedAt.isNone) fun orders =>
    let isLocal := fun (entry : Nat × OrderRow) => entry.2.order.regionId == some batch.targetRegionId
    let localOrderIds := (orders.filter isLocal).map (·.1)
    let transitOrderIds := (orders.filter fun entry => !isLocal entry).map (·.1)
    .commit {call:=.receiveBatch now requesterId batch orderIds}
      (setWhere now orderIds anyOrder (atBranch now requesterId batch.destinationBranchId) ++
        (setWhere now localOrderIds anyOrder (withStatus .received) ++ setWhere now transitOrderIds anyOrder (withStatus .new)))
      [] (success 200 "Transfer batch received")

-- Scanned orders are received; what is left in the batch is taken out of it.
def receiveBranchTransferBatchOrders (now requesterId : Nat) (batch : TransferBatch) (selected remaining : List Nat) : Request :=
  .commit {call:=.receiveBatchOrders now requesterId batch selected remaining}
    (setWhere now selected anyOrder (fun order =>
        withStatus .received (atBranch now requesterId batch.destinationBranchId order)) ++
      setWhere now remaining anyOrder (detached batch.forward))
    [] (success 200 "Transfer batch orders received")

def cancelBranchTransferBatch (now : Nat) (batch : TransferBatch) : Request :=
  .find (fun _ row => row.order.currentBatchId == some batch.id && !row.order.isDeleted && row.order.deletedAt.isNone) fun found =>
    let requeue := batch.forward && !found.isEmpty
    .find (fun _ row => row.order.currentBatchId == some batch.id && !row.order.isDeleted) fun matched =>
      .commit {call:=.cancelBatch now batch}
        (setWhere now (matched.map (·.1)) (fun order => order.currentBatchId == some batch.id) (detached requeue))
        [] (success 200 "Transfer batch cancelled")

def Call.request : Call → Request
  | .sell lookups requester id dto requestId => sellOrder lookups requester id dto requestId
  | .partlySell lookups requester id dto requestId qrCodeToken => partlySellOrder lookups requester id dto requestId qrCodeToken
  | .cancel lookups requester id dto requestId => cancelOrder lookups requester id dto requestId
  | .rollback lookups requester id targetStatus requestId => rollbackOrderToWaiting lookups requester id targetStatus requestId
  | .update lookups requesterId id dto => updateFull lookups requesterId id dto
  | .provider now id action => markByProvider now id action
  | .sendBatch now batch sentBatchId orderIds => sendBranchTransferBatch now batch sentBatchId orderIds
  | .receiveBatch now requesterId batch orderIds => receiveBranchTransferBatch now requesterId batch orderIds
  | .receiveBatchOrders now requesterId batch selected remaining =>
    receiveBranchTransferBatchOrders now requesterId batch selected remaining
  | .cancelBatch now batch => cancelBranchTransferBatch now batch

-- What logistics sends to order.update when a courier scans one order, and for every selected
-- order of a post that is not WAITING yet. Neither looks at the order's status first.
def receiveOrderWithScannerCourier (lookups : Lookups) (id : Nat) : Call := .update lookups none id {status:=some .waiting}
def receivePost (lookups : Lookups) (targetBranchId : Option Nat) (orders : List (Nat × OrderStatus)) : List Call :=
  (orders.filter fun order => order.2 != .waiting).map fun order =>
    .update lookups none order.1 {status:=some .waiting,returnRequested:=some false,branchId:=targetBranchId.map some}

-- The service under any calls: each its own session over one table of orders.
def serve (table : Table OrderRow) (nextId : Nat) (calls : List Call) (turns : List Turn) : Service :=
  (Machine.start table [] nextId (calls.map Call.request)).run turns

end Elchi.Orders
