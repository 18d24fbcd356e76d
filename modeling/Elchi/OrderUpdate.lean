import Elchi.OrderCalls
namespace Elchi.Orders
open RowLock

-- Columns written with `dto.x ?? order.x` keep the old value when null is given.
def UpdateDto.assign (dto : UpdateDto) (order : Order) : Order :=
  {order with
    marketId:=dto.marketId.getD order.marketId,customerId:=dto.customerId.getD order.customerId,
    whereDeliver:=dto.whereDeliver.getD order.whereDeliver,totalPrice:=dto.totalPrice.getD order.totalPrice,
    marketTariff:=dto.marketTariff.getD order.marketTariff,courierTariff:=dto.courierTariff.getD order.courierTariff,
    courierShare:=dto.courierShare.getD order.courierShare,branchShare:=dto.branchShare.getD order.branchShare,
    branchCashboxAmount:=dto.branchCashboxAmount.getD order.branchCashboxAmount,
    toBePaid:=dto.toBePaid.getD order.toBePaid,paidAmount:=dto.paidAmount.getD order.paidAmount,
    status:=dto.status.getD order.status,returnRequested:=dto.returnRequested.getD order.returnRequested,
    comment:=dto.comment.or order.comment,operator:=dto.operator.or order.operator,
    postId:=dto.postId.getD order.postId,canceledPostId:=dto.canceledPostId.getD order.canceledPostId,
    soldAt:=dto.soldAt.getD order.soldAt,branchId:=dto.branchId.getD order.branchId,
    currentBatchId:=dto.currentBatchId.getD order.currentBatchId,courierId:=dto.courierId.getD order.courierId,
    assignedAt:=dto.assignedAt.getD order.assignedAt,returnReason:=dto.returnReason.getD order.returnReason,
    districtId:=(dto.districtId.getD none).or order.districtId,regionId:=(dto.regionId.getD none).or order.regionId,
    address:=(dto.address.getD none).or order.address,qrCodeToken:=dto.qrCodeToken.or order.qrCodeToken,
    externalId:=dto.externalId.getD order.externalId,source:=dto.source.getD order.source,
    proofFiles:=dto.proofFiles.getD order.proofFiles}

def UpdateDto.recalculatesHolder (dto : UpdateDto) : Bool := dto.branchId.isSome || dto.courierId.isSome
def UpdateDto.rehold (dto : UpdateDto) (lookups : Lookups) (order : Order) : Order :=
  if dto.recalculatesHolder then
    let holder := resolveHolderFromState lookups order.branchId order.courierId
    {order with holderType:=holder.holderType,holderBranchId:=holder.holderBranchId,holderCourierId:=holder.holderCourierId}
  else order
def custodyChanged (before after : Order) : Bool :=
  before.holderType != after.holderType || before.holderBranchId != after.holderBranchId ||
    before.holderCourierId != after.holderCourierId
def handover (lookups : Lookups) (requesterId : Option Nat) (before after : Order) : Order :=
  if custodyChanged before after then {after with lastHandoverAt:=some lookups.now,lastHandoverBy:=requesterId} else after

-- The entity updateFull saves, from the row it loaded.
def updatedOrder (lookups : Lookups) (requesterId : Option Nat) (dto : UpdateDto) (order : Order) : Order :=
  handover lookups requesterId order (dto.rehold lookups (dto.assign order))
def updateOrder (lookups : Lookups) (requesterId : Option Nat) (dto : UpdateDto) (order : Order) : Except RpcError Order :=
  let updated := updatedOrder lookups requesterId dto order
  if isValidStatusTransition order.status updated.status then .ok updated
  else .error (badRequest
    ("Invalid status transition: " ++ statusText order.status ++ " -> " ++ statusText updated.status))

-- repository.save writes the loaded columns that differ from the stored row; the update time
-- moves only when something differs.
def saveOrder (now : Nat) (entity stored : Order) : Order :=
  if {entity with updatedAt:=stored.updatedAt} = stored then stored else {entity with updatedAt:=now}
def saveRow (now : Nat) (entity : Order) (stored : OrderRow) : OrderRow :=
  {stored with order:=saveOrder now entity stored.order}

-- enqueueFinanceOnStatusChange
def financeEvents (id : Nat) (order : Order) (oldStatus : OrderStatus) : List OrderEvent :=
  if isSold order.status && !isSold oldStatus then
    let sellProfit := computeSellProfit (order.marketTariff.getD 0) ((order.courierShare.or order.courierTariff).getD 0)
      (order.branchShare.getD 0)
    (match order.operatorId with
      | some operatorId => [.earningRecord id operatorId order.marketId order.totalPrice]
      | none => []) ++
    if sellProfit ≠ 0 then
      [.financialBalance sellProfit .sellProfit id order.marketId ("Order #" ++ toString id ++ " sell profit")]
    else []
  else if order.status = .waiting ∧ isSold oldStatus ∧ order.operatorId.isSome then [.earningRemove id]
  else []
def statusEvents (id : Nat) (before after : Order) : List OrderEvent :=
  if before.status = after.status then [] else financeEvents id after before.status

def itemTotal (items : List OrderItem) (productId : Nat) : Nat :=
  ((items.filter (·.productId == productId)).map (·.quantity)).sum
-- Per product sums; a product of one list that the other lacks counts as a change.
def haveOrderItemsChanged (existing requested : List OrderItem) : Bool :=
  let products := fun (items : List OrderItem) => (items.map (·.productId)).eraseDups
  (products existing).length != (products requested).length ||
    (products existing).any fun productId =>
      !(products requested).contains productId || itemTotal requested productId != itemTotal existing productId

def assertCommercialFieldsEditable (row : OrderRow) (dto : UpdateDto) : Except RpcError Unit :=
  if row.order.status = .created ∨ row.order.status = .new then .ok ()
  else if (dto.totalPrice.any (· != row.order.totalPrice)) || dto.items.any (haveOrderItemsChanged row.items) then
    .error (badRequest "HQ qabul qilgan buyurtmaning summasi va mahsulot sonini o'zgartirib bo'lmaydi")
  else .ok ()
def assertDeliveryDetailsEditable (lookups : Lookups) (id : Nat) (order : Order) (dto : UpdateDto) : Except RpcError Unit :=
  let changed := dto.customerId.any (· != order.customerId) || dto.whereDeliver.any (· != order.whereDeliver) ||
    dto.districtId.any (· != order.districtId) || dto.regionId.any (· != order.regionId) ||
    dto.address.any (fun address => address.getD "" != order.address.getD "")
  if changed && lookups.wasSentFromHqToBranch id then
    .error (badRequest "Branchga jo'natilgan buyurtmaning manzili va mijozini o'zgartirib bo'lmaydi")
  else .ok ()

def editOrder (lookups : Lookups) (requesterId : Option Nat) (id : Nat) (dto : UpdateDto) (row : OrderRow) :
    Except RpcError Order := do
  assertCommercialFieldsEditable row dto
  assertDeliveryDetailsEditable lookups id row.order dto
  updateOrder lookups requesterId dto row.order

def itemsQuantity (items : List OrderItem) : Nat := (items.map (·.quantity)).sum
def saveUpdate (lookups : Lookups) (call : Call) (id : Nat) (loaded entity : Order) : Request :=
  .commit {call:=call,loaded:=some loaded} [.update id (saveRow lookups.now entity)]
    ((statusEvents id loaded entity).map (id,·)) (.done (.ok (.order entity)))

-- updateFull without an outer transaction: the row is read unlocked, the line items are
-- replaced at once, and the entity is saved in a transaction of its own.
def updateFull (lookups : Lookups) (requesterId : Option Nat) (id : Nat) (dto : UpdateDto) : Request :=
  let call : Call := .update lookups requesterId id dto
  findById id fun row => match editOrder lookups requesterId id dto row with
  | .error error => fail error
  | .ok updated => match dto.items with
    | none => saveUpdate lookups call id row.order updated
    | some items =>
      .commit {call:=call} [.update id fun stored => {stored with items:=[]}] []
        (.commit {call:=call} [.update id fun stored => {stored with items:=stored.items ++ items}] []
          (saveUpdate lookups call id row.order {updated with productQuantity:=itemsQuantity items}))

-- updateFull inside a caller's transaction: it still reads through the default connection,
-- and its writes and events join those of the caller.
def updateWithin (lookups : Lookups) (requester : Requester) (id : Nat) (dto : UpdateDto)
    (next : Order → List OrderEvent → Request) : Request :=
  findById id fun row => match updateOrder lookups (some requester.id) dto row.order with
  | .error error => fail error
  | .ok updated => next updated (statusEvents id row.order updated)

end Elchi.Orders
