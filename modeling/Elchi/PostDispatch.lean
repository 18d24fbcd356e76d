import Elchi.CanceledPosts
namespace Elchi.Logistics
open RowLock Orders Programs

def findCanceledOrders (id : Nat) (post : Post) : Operation (Table Order) :=
  if post.status = .canceled then do
    let (_,orders) ← findCanceledPostGroup id post
    pure orders
  else findOrders fun _ order => order.canceledPostId == some id
def getPostOrders (id : Nat) (requester : Requester) : Operation (Table Order) := do
  let (_,post) ← found (← findPost (byId id)) (notFound "Post not found")
  let isCourier := requester.hasRole .courier
  let scopedBranchId ← resolveScopedBranchId requester
  let ordersByPostId ← findOrders fun _ order => order.postId == some id
  let ordersByCanceledPostId ← findCanceledOrders id post
  let orders := ordersByPostId ++ ordersByCanceledPostId
  let belongs := belongsTo scopedBranchId orders
  require (scopedBranchId.isNone || post.branchId == scopedBranchId || belongs || (isCourier && post.courierId == requester.id))
    (forbidden "Siz bu branch pochtasidagi orderlarni ko'ra olmaysiz")
  onlyIf (belongs && post.courierId == 0 && post.branchId != scopedBranchId) (savePost id {post with branchId:=scopedBranchId})
  pure ((mapById [] orders).filter fun entry => !(post.status == .sent && isCourier) || entry.2.status == .onTheRoad)

-- A request of another service: what it answers may still get lost.
def remotely (op : Operation α) : Operation α := do
  let result ← op
  call .reply
  pure result
def nothingToDispatch : RpcError := badRequest "Post ichida jo'natishga mos order topilmadi"
def dispatched (destinationBranchId : Nat) (postId : Option Nat) : UpdateDto :=
  {branchId:=some (some destinationBranchId),postId:=some postId,currentBatchId:=some none,status:=some .onTheRoad}
def dispatchPostToBranch (sourceBranchId postId destinationBranchId : Nat) (selectedOrderIds : List Nat) (requester : Requester) :
    Operation Nat := do
  call (.checkDispatch sourceBranchId destinationBranchId requester)
  let orders ← remotely (getPostOrders postId requester)
  require (!orders.isEmpty) nothingToDispatch
  require (!selectedOrderIds.isEmpty) (badRequest "order_ids is required")
  let candidateOrders := orders.filter fun entry => selectedOrderIds.contains entry.1
  require (!candidateOrders.isEmpty) (badRequest "Tanlangan order_ids post ichida topilmadi")
  let mismatched := fun (order : Order) => order.branchId != some sourceBranchId
  let eligible := candidateOrders.filter fun entry =>
    !(mismatched entry.2 || entry.2.isDeleted || entry.2.status == .cancelled || entry.2.status == .closed)
  require (!eligible.isEmpty) nothingToDispatch
  require (!candidateOrders.any fun entry => mismatched entry.2)
    (badRequest "Post ichida manba branch'ga tegishli bo'lmagan order bor. Avval postni tozalang yoki to'g'rilang")
  let assignments ← remotely (receiveOrdersIntoPosts (eligible.map fun entry =>
    {orderId:=entry.1,assignedRegion:=entry.2.regionId,assignedBranch:=some destinationBranchId,status:=.sent,totalPrice:=entry.2.totalPrice}))
  forEach (fun entry => updateOrder entry.1 (dispatched destinationBranchId ((mapById [] assignments).row entry.1)) (some requester.id))
    eligible
  onlyIf (eligible.length == orders.length) (remotely (deletePost postId))
  pure eligible.length

-- The requests that work on posts and on the orders in them.
inductive Request where
  | createPost (courierId : Nat) (orderIDs : List Nat)
  | newPosts
  | receiveOrdersIntoPosts (placements : List Placement)
  | sendPost (id courierId : Nat) (orderIds : List Nat) (requesterId : Option Nat)
  | receivePost (requester : Requester) (id : Nat) (orderIds : List Nat)
  | receivePostWithScanner (requester : Requester) (token : Nat)
  | receiveOrderWithScannerCourier (requester : Requester) (orderId : Nat)
  | scanAssignOrder (now : Nat) (requester : Requester) (qrToken : String)
  | assignOrdersToCourier (now : Nat) (requester : Requester) (orderIds : List Nat) (courierId : Nat)
  | approveReturnRequests (orderIds : List Nat) (requester : Option Requester)
  | rejectReturnRequests (orderIds : List Nat) (requester : Option Requester)
  | deletePost (id : Nat)
  | dispatchPostToBranch (sourceBranchId postId destinationBranchId : Nat) (orderIds : List Nat) (requester : Requester)
  | createCanceledPost (requester : Requester) (orderIds : List Nat)
  | createCanceledPostToHq (requester : Requester) (orderIds : List Nat)
  | receiveCanceledPost (requester : Requester) (id : Nat) (orderIds : List Nat)

def answered (op : Operation α) : Operation Unit := do
  let _ ← op
  pure ()
def Request.operation : Request → Operation Unit
  | .createPost courierId orderIDs => answered (Logistics.createPost courierId orderIDs)
  | .newPosts => answered Logistics.newPosts
  | .receiveOrdersIntoPosts placements => answered (Logistics.receiveOrdersIntoPosts placements)
  | .sendPost id courierId orderIds requesterId => answered (Logistics.sendPost id courierId orderIds requesterId)
  | .receivePost requester id orderIds => answered (Logistics.receivePost requester id orderIds)
  | .receivePostWithScanner requester token => Logistics.receivePostWithScanner requester token
  | .receiveOrderWithScannerCourier requester orderId => Logistics.receiveOrderWithScannerCourier requester orderId
  | .scanAssignOrder now requester qrToken => answered (Logistics.scanAssignOrder now requester qrToken)
  | .assignOrdersToCourier now requester orderIds courierId => answered (Logistics.assignOrdersToCourier now requester orderIds courierId)
  | .approveReturnRequests orderIds requester => answered (Logistics.approveReturnRequests orderIds requester)
  | .rejectReturnRequests orderIds requester => answered (Logistics.rejectReturnRequests orderIds requester)
  | .deletePost id => Logistics.deletePost id
  | .dispatchPostToBranch sourceBranchId postId destinationBranchId orderIds requester =>
    answered (Logistics.dispatchPostToBranch sourceBranchId postId destinationBranchId orderIds requester)
  | .createCanceledPost requester orderIds => answered (Logistics.createCanceledPost requester orderIds)
  | .createCanceledPostToHq requester orderIds => answered (Logistics.createCanceledPostToHq requester orderIds)
  | .receiveCanceledPost requester id orderIds => answered (Logistics.receiveCanceledPost requester id orderIds)

end Elchi.Logistics
