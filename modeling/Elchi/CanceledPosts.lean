import Elchi.PostOperations
import Mathlib.Data.List.Induction
namespace Elchi.Logistics
open RowLock Orders Programs

def isCancelledPostEligibleOrder (status : OrderStatus) : Bool := status == .cancelled || status == .cancelledSent
def isCancelledOrderOwnedByCourier (order : Order) (courierId branchId : Nat) : Bool :=
  match order.holderCourierId with
  | some holder => holder == courierId && order.holderType == .courier
  | none => order.courierId == some courierId && order.holderType == .courier && (getOrderBranchScope order).all (· == branchId)
def isActiveCanceledPostForTarget (post : Option (Nat × Post)) (courierId branchId : Nat) : Bool :=
  post.any fun entry => entry.2.status == .canceled && entry.2.courierId == courierId && entry.2.branchId == some branchId
def isOrderInActiveCanceledPost (order : Order) (activePost : Option (Nat × Post)) (courierId branchId : Nat) : Operation Bool :=
  match order.canceledPostId with
  | none => pure false
  | some canceledPostId =>
    if order.status ≠ .cancelledSent then pure false
    else if activePost.any fun entry => entry.1 == canceledPostId then pure (isActiveCanceledPostForTarget activePost courierId branchId)
    else do
      let existingPost ← findPost fun key post => key == canceledPostId && post.status == .canceled
      pure (isActiveCanceledPostForTarget existingPost courierId branchId)
def shouldRepairCanceledPostOrderHolder (order : Order) (branchId : Nat) : Bool :=
  order.branchId != some branchId || order.courierId.isSome || order.holderType != .branch || order.holderBranchId != some branchId ||
    order.holderCourierId.isSome

def blankOr (left right : Option Nat) : Bool := left.isNone || right.isNone || left == right
-- A Map by id keeps the place of the first entry and the value of the last.
def mapById (start rows : Table α) : Table α := rows.foldl (fun map entry => map.put entry.1 entry.2) start
theorem row_mapById (start rows : Table α) (id : Nat) :
    (mapById start rows).row id = ((mapById [] rows).row id).or (start.row id) := by
  induction rows using List.reverseRecOn with
  | nil => simp [mapById]
  | append_singleton front entry ih =>
    have long : ∀ map : Table α,mapById map (front ++ [entry]) = (mapById map front).put entry.1 entry.2 := by
      intro map
      simp [mapById]
    rw [long,long,row_put,row_put,ih]
    by_cases same : entry.1 = id
    · simp [same]
    · simp [same]
theorem nothing_keyed : Table.Keyed ([] : Table α) := List.nodup_nil
theorem keyed_mapById {start : Table α} (keyed : start.Keyed) (rows : Table α) : (mapById start rows).Keyed := by
  induction rows generalizing start with
  | nil => exact keyed
  | cons entry rest ih => exact ih (put_keyed keyed _ _)
theorem mapById_row {rows : Table α} (keyed : rows.Keyed) (id : Nat) : (mapById [] rows).row id = rows.row id := by
  induction rows with
  | nil => rfl
  | cons entry rest ih =>
    obtain ⟨apart,later⟩ := List.nodup_cons.mp keyed
    have first : mapById [] (entry :: rest) = mapById [(entry.1,entry.2)] rest := rfl
    rw [first,row_mapById,ih later,row_cons,row_cons]
    by_cases same : entry.1 = id
    · have absent : Table.row rest id = none := row_none.mpr (same ▸ apart)
      simp [same,absent]
    · simp [same]
theorem mem_mapById {start rows : Table α} {entry : Nat × α} (member : entry ∈ mapById start rows) : entry ∈ start ∨ entry ∈ rows := by
  induction rows generalizing start with
  | nil => exact .inl member
  | cons first rest ih =>
    rcases ih member with before | later
    · rcases put_mem before with rfl | old
      · exact .inr List.mem_cons_self
      · exact .inl old
    · exact .inr (.tail _ later)
def findCanceledPostGroup (id : Nat) (sourcePost : Post) : Operation (Table Post × Table Order) := do
  let candidatePosts ← call (.findPosts fun _ post => post.courierId == sourcePost.courierId && post.status == .canceled)
  let posts := mapById [(id,sourcePost)] (candidatePosts.filter fun entry =>
    blankOr sourcePost.branchId entry.2.branchId && blankOr sourcePost.regionId entry.2.regionId)
  let orderGroups ← collect (fun (candidate : Nat × Post) =>
    findOrders fun _ order => order.canceledPostId == some candidate.1 && order.status == .cancelledSent) posts
  pure (posts,mapById [] orderGroups.flatten)

-- The dto of an order that goes into a canceled post.
def sentBack (canceledPostId : Option Nat) (branchId : Nat) : UpdateDto :=
  {canceledPostId:=some canceledPostId,status:=some .cancelledSent,branchId:=some (some branchId),courierId:=some none,assignedAt:=some none}
-- Orders that the active post has not got yet, and those it has with a wrong holder.
def sortOrders (activePost : Option (Nat × Post)) (courierId branchId : Nat) (orders : Table Order) :
    Operation (Table Order × Table Order) := do
  let marked ← collect (fun entry => do
    let already ← isOrderInActiveCanceledPost entry.2 activePost courierId branchId
    pure (already,entry)) orders
  pure ((marked.filter fun entry => !entry.1).map (·.2),
    (marked.filter fun entry => entry.1 && shouldRepairCanceledPostOrderHolder entry.2.2 branchId).map (·.2))
-- What both operations do once the orders are read and allowed.
def fillCanceledPost (requester : Requester) (branchId : Nat) (canceledPost : Option (Nat × Post)) (orders : Table Order) :
    Operation (Option Nat) := do
  let (toSend,toRepair) ← sortOrders canceledPost requester.id branchId orders
  forEach (fun entry => updateOrder entry.1 (sentBack ((canceledPost.map (·.1)).or entry.2.canceledPostId) branchId)
    (some requester.id)) toRepair
  if toSend.isEmpty then pure ((canceledPost.map (·.1)).or (orders.findSome? (·.2.canceledPostId)))
  else do
    let post ← orInsert canceledPost (emptyPost requester.id (orders.findSome? (·.2.regionId)) (some branchId) .canceled)
    forEach (fun entry => updateOrder entry.1 (sentBack (some post.1) branchId) (some requester.id)) toSend
    savePost post.1 {post.2 with orderQuantity:=post.2.orderQuantity+toSend.length,postTotalPrice:=post.2.postTotalPrice+rowsTotal toSend}
    pure (some post.1)

-- From a branch to the head office.
def createCanceledPostToHq (requester : Requester) (givenIds : List Nat) : Operation (Option Nat) := do
  require (requester.hasRole .manager) (forbidden "Canceled postni HQga faqat manager jo‘nata oladi")
  let sourceBranchId ← found (← resolveScopedBranchId requester) (forbidden "Manager branchga biriktirilmagan")
  let hqBranchId ← findHqBranchId
  require (sourceBranchId != hqBranchId) (badRequest "HQ manager canceled postni o‘ziga jo‘nata olmaydi")
  let orderIds := givenIds.eraseDups
  require (!orderIds.isEmpty) (badRequest "No orders provided")
  let canceledPost ← findPost fun _ post =>
    post.courierId == requester.id && post.branchId == some hqBranchId && post.status == .canceled
  let orders ← collect (fun orderId => do
    let order ← findOrderById orderId
    require (isCancelledPostEligibleOrder order.status) (badRequest "Some orders are not in CANCELED status")
    require (order.status != .cancelled || (getOrderBranchScope order == some sourceBranchId && order.holderType == .branch))
      (forbidden "Manager faqat o‘z branchidagi bekor qilingan orderlarni HQga jo‘nata oladi")
    if order.status = .cancelledSent then
      let already ← isOrderInActiveCanceledPost order canceledPost requester.id hqBranchId
      require already (forbidden "Jo‘natilgan bekor order managerning faol HQ postiga tegishli emas")
      pure (orderId,order)
    else pure (orderId,order)) orderIds
  fillCanceledPost requester hqBranchId canceledPost orders
-- From a courier to his branch.
def createCanceledPost (requester : Requester) (givenIds : List Nat) : Operation (Option Nat) := do
  if requester.hasRole .manager then createCanceledPostToHq requester givenIds
  else do
    let orderIds := givenIds.eraseDups
    require (!orderIds.isEmpty) (badRequest "No orders provided")
    let courierBranchId ← findCourierBranchId requester.id
    let canceledPost ← findPost fun _ post =>
      post.courierId == requester.id && post.branchId == some courierBranchId && post.status == .canceled
    let orders ← collect (fun orderId => do
      let order ← findOrderById orderId
      require (isCancelledPostEligibleOrder order.status) (badRequest "Some orders are not in CANCELED status")
      require (order.status != .cancelled || isCancelledOrderOwnedByCourier order requester.id courierBranchId)
        (forbidden "Courier faqat o‘ziga biriktirilgan bekor qilingan orderlarni jo‘nata oladi")
      pure (orderId,order)) orderIds
    fillCanceledPost requester courierBranchId canceledPost orders

structure Receipt where
  id : Nat
  post : Post
  targetBranchId : Nat
  isHqReceipt : Bool
  group : Table Post
  orders : Table Order
  received : List Nat
def Receipt.remaining (receipt : Receipt) : Table Order := receipt.orders.filter fun entry => !receipt.received.contains entry.1

def returnBranch (receipt : Receipt) (fallbackBranchId : Option Nat) (order : Order) : Option Nat :=
  if receipt.isHqReceipt then (order.holderBranchId.or order.branchId).or fallbackBranchId
  else some (receipt.post.branchId.getD receipt.targetBranchId)
def returned (receipt : Receipt) (postId branchId : Nat) : UpdateDto :=
  {status:=some .cancelledSent,branchId:=some (some branchId),
    courierId:=some (if receipt.isHqReceipt then none else some receipt.post.courierId),assignedAt:=some none,
    canceledPostId:=some (some postId)}
-- An empty region is no condition of the query.
def returnPostOf (receipt : Receipt) (branchId : Nat) (regionId : Option Nat) (key : Nat) (post : Post) : Bool :=
  key != receipt.id && post.courierId == receipt.post.courierId && post.branchId == some branchId &&
    regionId.all (fun regionId => post.regionId == some regionId) && post.status == .canceled
def requeueGroup (requester : Requester) (receipt : Receipt) (group : (Nat × Option Nat) × List ((Nat × Option Nat) × Nat × Order)) :
    Operation Nat := do
  let (branchId,regionId) := group.1
  let returnPost ← orInsert (← findPost (returnPostOf receipt branchId regionId))
    (emptyPost receipt.post.courierId regionId (some branchId) .canceled)
  let orders := group.2.map (·.2)
  forEach (fun entry => updateOrder entry.1 (returned receipt returnPost.1 branchId) (some requester.id)) orders
  savePost returnPost.1 {returnPost.2 with
    orderQuantity:=returnPost.2.orderQuantity+orders.length,postTotalPrice:=returnPost.2.postTotalPrice+rowsTotal orders}
  pure returnPost.1
def requeueUnreceivedCanceledOrders (requester : Requester) (receipt : Receipt) (fallbackBranchId : Option Nat) : Operation (List Nat) :=
  if receipt.remaining.any fun entry => (returnBranch receipt fallbackBranchId entry.2).isNone then
    fail (badRequest "Qolgan bekor qilingan orderlarni qaytarish uchun branch aniqlanmadi")
  else collect (requeueGroup requester receipt) (groupBy (·.1) (receipt.remaining.filterMap fun entry =>
    (returnBranch receipt fallbackBranchId entry.2).map fun branchId => ((branchId,entry.2.regionId.or receipt.post.regionId),entry)))

def branchOfPost (post : Post) : Operation Nat :=
  match post.branchId with
  | some branchId => pure branchId
  | none => findCourierBranchId post.courierId
-- Up to the last order that is received.
def openReceipt (requester : Requester) (id : Nat) (givenIds : List Nat) : Operation Receipt := do
  let (_,post) ← found (← findPost (byId id)) (notFound "Post not found")
  require (post.status == .canceled) (badRequest "Post with this status can not be received")
  let scopedBranchId ← resolveScopedBranchId requester
  let targetBranchId ← branchOfPost post
  let hqBranchId ← findHqBranchId
  let isHqReceipt := targetBranchId == hqBranchId
  require (!isSystemPrivileged requester || isHqReceipt)
    (forbidden "HQ xodimi faqat HQga yuborilgan bekor qilingan pochtani qabul qila oladi")
  require (scopedBranchId.all (· == targetBranchId)) (forbidden "Siz boshqa branchning bekor qilingan pochtasini qabul qila olmaysiz")
  let sourcePost := {post with branchId:=some targetBranchId}
  let (group,orders) ← findCanceledPostGroup id sourcePost
  let received := givenIds.eraseDups
  let invalidIds := received.filter fun orderId => !(orders.map (·.1)).contains orderId
  require invalidIds.isEmpty (badRequest ("Some order_ids do not belong to this post: " ++ ", ".intercalate (invalidIds.map toString)))
  forEach (fun orderId => updateOrder orderId
    {status:=some .cancelled,branchId:=some (some targetBranchId),courierId:=some none,assignedAt:=some none,canceledPostId:=some none}
    (some requester.id)) received
  pure {id:=id,post:=sourcePost,targetBranchId:=targetBranchId,isHqReceipt:=isHqReceipt,group:=group,orders:=orders,received:=received}
def closed (post : Post) : Post := {post with orderQuantity:=0,postTotalPrice:=0,status:=.canceledReceived}
def closePost (entry : Nat × Post) : Operation Unit := do
  match ← (savePost entry.1 (closed entry.2)).attempt with
  | .ok _ => pure ()
  | .error _ => do
    call (.updatePost entry.1 closed)
    let _ ← findPost (byId entry.1)
    pure ()
def findFallbackBranch (receipt : Receipt) : Operation (Option Nat) :=
  if receipt.isHqReceipt then do
    let assignment ← findBranchAssignmentByUserId receipt.post.courierId
    pure (assignment.map (·.branchId))
  else pure (some receipt.targetBranchId)
def requeueRest (requester : Requester) (receipt : Receipt) : Operation (List Nat) :=
  if receipt.remaining.isEmpty then pure []
  else do
    let fallbackBranchId ← findFallbackBranch receipt
    requeueUnreceivedCanceledOrders requester receipt fallbackBranchId
structure ReceiptReply where
  orderIds : List Nat
  remainingOrderIds : List Nat
  requeuedPostIds : List Nat
  groupedPostIds : List Nat
  branchId : Nat
deriving DecidableEq, Repr
def receiveCanceledPost (requester : Requester) (id : Nat) (orderIds : List Nat) : Operation ReceiptReply := do
  let receipt ← openReceipt requester id orderIds
  forEach closePost receipt.group
  let requeued ← requeueRest requester receipt
  pure {
    orderIds:=receipt.received,remainingOrderIds:=receipt.remaining.map (·.1),requeuedPostIds:=requeued,
    groupedPostIds:=receipt.group.map (·.1),branchId:=receipt.targetBranchId}

end Elchi.Logistics
