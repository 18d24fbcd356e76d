import Elchi.Posts
import Mathlib.Data.List.Sort
namespace Elchi.Logistics
open RowLock Orders Programs

def raised (post : Post) (quantity total : Int) : Post :=
  {post with branchId:=none,postTotalPrice:=post.postTotalPrice+total,orderQuantity:=post.orderQuantity+quantity}
def saveRaised (row : Option (Nat × Post)) (fresh : Post) (quantity total : Int) : Operation (Nat × Post) :=
  match row with
  | some (id,post) => do
    savePost id (raised post quantity total)
    pure (id,raised post quantity total)
  | none => do
    let id ← insertPost (raised fresh quantity total)
    pure (id,raised fresh quantity total)
def createPost (courierId : Nat) (orderIDs : List Nat) : Operation Post := do
  let uniqueOrderIds := orderIDs.eraseDups
  let orders ← collect findOrderById uniqueOrderIds
  let regionId := orders.findSome? (·.regionId)
  let _ ← findBranchAssignmentByUserId courierId
  let post ← findIfGiven regionId fun regionId => findPost (isNewPostOf regionId)
  let saved ← saveRaised post (emptyPost courierId regionId none .new) uniqueOrderIds.length (totalPrice orders)
  forEach (fun orderId => updateOrder orderId {postId:=some (some saved.1),status:=some .received} none) uniqueOrderIds
  pure saved.2

-- The oldest post of a region takes over the others.
def byAge (createdAt : Nat → Nat) (posts : Table Post) : Table Post :=
  posts.insertionSort fun left right => createdAt left.1 ≤ createdAt right.1
def collapseRegion (createdAt : Nat → Nat) (regionPosts : Table Post) : Operation (Table Post) :=
  match byAge createdAt regionPosts with
  | [] => pure []
  | (id,post) :: duplicates => do
    let canonical := {post with branchId:=none}
    if duplicates.isEmpty then
      savePost id canonical
      pure [(id,canonical)]
    else
      let duplicateOrders ← findOrders fun _ order => order.postId.any fun postId => (duplicates.map (·.1)).contains postId
      forEach (fun entry => updateOrder entry.1 {postId:=some (some id)} none) duplicateOrders
      let allGroupOrders ← findOrders fun _ order => order.postId.any fun postId => (id :: duplicates.map (·.1)).contains postId
      let counted := {canonical with orderQuantity:=allGroupOrders.length,postTotalPrice:=rowsTotal allGroupOrders}
      forEach (fun duplicate => call (.removePost duplicate.1)) duplicates
      savePost id counted
      pure [(id,counted)]
def collapseDuplicateNewPosts (createdAt : Nat → Nat) (posts : Table Post) : Operation (Table Post) := do
  let canonicals ← collect (fun group => collapseRegion createdAt group.2)
    (groupBy (fun entry => entry.2.regionId) (posts.filter fun entry => entry.2.regionId.isSome))
  pure (posts.filterMap fun entry =>
    if entry.2.regionId.isNone then some entry else canonicals.flatten.find? fun canonical => canonical.1 == entry.1)

-- The NEW post of a region, made if there is none.
def newPostOf (regionId : Nat) : Operation Nat := do
  match ← findPost (isNewPostOf regionId) with
  | some (id,post) =>
    if post.branchId.isSome then
      savePost id {post with branchId:=none}
      pure id
    else pure id
  | none => insertPost (emptyPost 0 (some regionId) none .new)
def fillRegion (regionId : Nat) (orders : Table Order) : Operation Unit := do
  let id ← newPostOf regionId
  forEach (fun entry => updateOrder entry.1 {postId:=some (some id)} none) orders
  addToPost id orders.length (rowsTotal orders)
  let _ ← findPost (byId id)
  pure ()
-- Posts with the counters that their orders have, for the list.
def withStats (posts : Table Post) (orders : Table Order) : Table Post :=
  posts.map fun entry =>
    let own := orders.filter fun order => order.2.postId == some entry.1
    (entry.1,{entry.2 with orderQuantity:=own.length,postTotalPrice:=rowsTotal own})
def newPosts : Operation (Table Post) := do
  let received ← findOrders fun _ order => order.status == .received
  let candidates := received.filterMap fun entry =>
    if entry.2.postId.isNone then entry.2.regionId.map (·,entry) else none
  forEach (fun group => fillRegion group.1 (group.2.map (·.2))) (groupBy (·.1) candidates)
  let posts ← call (.findPosts fun _ post => post.status == .new)
  let kept ← collapseDuplicateNewPosts id posts.reverse
  if kept.isEmpty then pure []
  else do
    let orders ← findOrders fun _ order => order.postId.any fun postId => (kept.map (·.1)).contains postId
    pure (withStats kept orders)

structure Placement where
  orderId : Nat
  assignedRegion : Option Nat
  assignedBranch : Option Nat
  status : PostStatus
  totalPrice : Int
deriving DecidableEq, Repr
def Placement.key (placement : Placement) : PostStatus × Option Nat × Option Nat :=
  (placement.status,placement.assignedRegion,placement.assignedBranch)

def placeGroup (group : (PostStatus × Option Nat × Option Nat) × List Placement) : Operation (List (Nat × Nat)) := do
  let (status,assignedRegion,assignedBranch) := group.1
  -- The column is a number, so the query fails on an empty text.
  let regionId ← found assignedRegion ⟨500,"Internal server error"⟩
  let raise := fun (post : Post) => {post with
    orderQuantity:=post.orderQuantity+group.2.length,postTotalPrice:=post.postTotalPrice+(group.2.map (·.totalPrice)).sum}
  match ← findPost fun _ post => post.regionId == some regionId && post.status == status && post.branchId == assignedBranch with
  | some (id,post) =>
    if status = .new ∧ post.branchId.isSome then
      savePost id {post with branchId:=none}
      savePost id (raise post)
      pure (group.2.map fun placement => (placement.orderId,id))
    else
      savePost id (raise post)
      pure (group.2.map fun placement => (placement.orderId,id))
  | none =>
    let id ← insertPost (emptyPost 0 (some regionId) assignedBranch status)
    savePost id (raise (emptyPost 0 (some regionId) assignedBranch status))
    pure (group.2.map fun placement => (placement.orderId,id))
-- Which post each order is to name; the orders are left to the caller.
def receiveOrdersIntoPosts (placements : List Placement) : Operation (List (Nat × Nat)) := do
  let assignments ← collect placeGroup (groupBy Placement.key placements)
  pure assignments.flatten

def deletePost (id : Nat) : Operation Unit := do
  let _ ← found (← findPost (byId id)) (notFound "Post not found")
  call (.removePost id)

-- Part of a post goes: the rest stays in it, and the part becomes a post of its own.
def sendPart (id : Nat) (post : Post) (courierId : Nat) (regionId : Option Nat) (selectedIds : List Nat) (selected : List Order)
    (remaining : Table Order) (requesterId : Option Nat) : Operation Post := do
  forEach (fun entry => updateOrder entry.1 {postId:=some (some id),status:=some .received} none) remaining
  let sentPost := {emptyPost courierId regionId none .sent with postTotalPrice:=totalPrice selected,orderQuantity:=selectedIds.length}
  let sentId ← insertPost sentPost
  forEach (fun orderId => updateOrder orderId
    {postId:=some (some sentId),status:=some .onTheRoad,courierId:=some (some courierId)} requesterId) selectedIds
  savePost id {post with
    courierId:=0,status:=.new,orderQuantity:=remaining.length,postTotalPrice:=rowsTotal remaining,regionId:=regionId}
  pure sentPost
def sendWhole (id : Nat) (post : Post) (courierId : Nat) (regionId : Option Nat) (selectedIds : List Nat) (selected : List Order)
    (requesterId : Option Nat) : Operation Post := do
  forEach (fun orderId => updateOrder orderId
    {postId:=some (some id),status:=some .onTheRoad,courierId:=some (some courierId)} requesterId) selectedIds
  let updatedPost := {post with
    courierId:=courierId,status:=.sent,orderQuantity:=selectedIds.length,postTotalPrice:=totalPrice selected,regionId:=regionId}
  savePost id updatedPost
  pure updatedPost
def sendPost (id courierId : Nat) (orderIds : List Nat) (requesterId : Option Nat) : Operation Post := do
  let (_,post) ← found (← findPost (byId id)) (notFound "Post not found")
  require (← findCourierById courierId) (notFound "Courier not found")
  require (!orderIds.isEmpty) (badRequest "You can not send an empty post")
  let currentOrders ← findOrders fun _ order => order.postId == some id
  require (!currentOrders.isEmpty) (badRequest "Post has no orders")
  let selectedIds := orderIds.eraseDups
  require (selectedIds.all fun orderId => (currentOrders.map (·.1)).contains orderId)
    (badRequest "Some selected orders are not inside this post")
  let remaining := currentOrders.filter fun entry => !selectedIds.contains entry.1
  let selected ← collect findOrderById selectedIds
  let regionId := post.regionId.or (selected.findSome? (·.regionId))
  if remaining.isEmpty then sendWhole id post courierId regionId selectedIds selected requesterId
  else sendPart id post courierId regionId selectedIds selected remaining requesterId

-- The orders all of one branch, which is the requester's.
def belongsTo (scopedBranchId : Option Nat) (orders : Table Order) : Bool :=
  scopedBranchId.isSome && (orders.filterMap fun entry => getOrderBranchScope entry.2).eraseDups == scopedBranchId.toList
def receivePost (requester : Requester) (id : Nat) (orderIds : List Nat) : Operation (List Order) := do
  let (_,post) ← found (← findPost (byId id)) (notFound "Post not found")
  let waitingOrderIds := orderIds.eraseDups
  let allOrders ← findOrders fun _ order => order.postId == some id
  let scopedBranchId ← resolveScopedBranchId requester
  let belongs := belongsTo scopedBranchId allOrders
  let ownPost := post.courierId == requester.id
  require (scopedBranchId.isNone || post.branchId == scopedBranchId || belongs || (requester.hasRole .courier && ownPost))
    (forbidden "Siz bu branch pochtasini qabul qila olmaysiz")
  require (!requester.hasRole .courier || isSystemPrivileged requester || ownPost)
    (forbidden "Courier faqat o'ziga biriktirilgan pochtani qabul qilishi mumkin")
  let receivable := waitingOrderIds.any fun orderId => (allOrders.row orderId).any fun order => order.status == .onTheRoad
  require (post.status == .sent || (post.status == .received && receivable)) (badRequest "Cannot receive post with this status")
  let branchId := if belongs && post.courierId == 0 then scopedBranchId else post.branchId
  let targetBranchId := branchId.or (if belongs then scopedBranchId else none)
  forEach (fun orderId => match allOrders.row orderId with
    | some target => onlyIf (target.status != .waiting) (tolerate (updateOrder orderId
      {status:=some .waiting,returnRequested:=some false,branchId:=targetBranchId.map some} none))
    | none => pure ()) waitingOrderIds
  let remaining := allOrders.filter fun entry => !waitingOrderIds.contains entry.1 && entry.2.status == .onTheRoad
  forEach (fun entry => tolerate (updateOrder entry.1
    {status:=some .onTheRoad,returnRequested:=some true,branchId:=targetBranchId.map some} none)) remaining
  forEach (fun branchId => forEach (fun entry =>
    onlyIf (entry.2.branchId != some branchId) (tolerate (updateOrder entry.1 {branchId:=some (some branchId)} none))) allOrders)
    targetBranchId.toList
  savePost id {post with branchId:=branchId,status:=if remaining.isEmpty then .received else .sent}
  collect findOrderById waitingOrderIds

def receivePostWithScanner (requester : Requester) (token : Nat) : Operation Unit := do
  let (id,post) ← found (← findPost fun key post => key == token && post.courierId == requester.id) (notFound "Post not found")
  require (post.status == .sent) (badRequest "Post can not be received")
  let orders ← findOrders fun _ order => order.postId == some id && order.status == .onTheRoad
  require (!orders.isEmpty) (notFound "There are not orders in this post")
  forEach (fun entry => updateOrder entry.1 {status:=some .waiting} none) orders
  savePost id {post with status:=.received}
def receiveOrderWithScannerCourier (requester : Requester) (orderId : Nat) : Operation Unit := do
  let order ← findOrderById orderId
  let postId ← found order.postId (notFound "Order has no post")
  let (id,post) ← found (← findPost fun key post => key == postId && post.courierId == requester.id)
    (notFound "Post not found or not assigned to this courier")
  updateOrder orderId {status:=some .waiting} none
  let remaining ← findOrders fun _ order => order.postId == some id && order.status == .onTheRoad
  if remaining.isEmpty then savePost id {post with status:=.received} else pure ()

def returnAwaited (order : Order) : Bool := order.status == .waiting && order.returnRequested
-- The requests by the courier whose post the order is in.
def getReturnRequests : Operation (List (Option Nat × Table Order)) := do
  let orders ← findOrders fun _ order => order.status == .waiting && order.returnRequested == true
  let postIds := orders.filterMap (·.2.postId)
  let posts ← findPostsOf postIds
  pure (groupBy (fun entry => (entry.2.postId.bind (Table.row posts)).map (·.courierId)) orders)

def findEach (orderIds : List Nat) : Operation (Table Order) :=
  collect (fun orderId => do
    let order ← findOrderById orderId
    pure (orderId,order)) orderIds
def approveRegion (requester : Option Requester) (group : Nat × List (Nat × Nat × Order)) : Operation Unit := do
  let (id,_) ← orInsert (← findPost (isNewPostOf group.1)) (emptyPost 0 (some group.1) none .new)
  let orders := group.2.map (·.2)
  forEach (fun entry => updateOrder entry.1
    {status:=some .received,returnRequested:=some false,postId:=some (some id)} (requester.map (·.id))) orders
  addToPost id orders.length (rowsTotal orders)
  let _ ← findPost (byId id)
  pure ()
def approveReturnRequests (orderIds : List Nat) (requester : Option Requester) : Operation Nat := do
  require (!orderIds.isEmpty) (badRequest "Order IDs required")
  let orders ← findEach orderIds.eraseDups
  let eligibleOrders := orders.filter fun entry => returnAwaited entry.2
  require (!eligibleOrders.isEmpty) (notFound "No return-requested orders found")
  let postIds := eligibleOrders.filterMap (·.2.postId)
  let currentPosts ← findPostsOf postIds
  let regionOf := fun (order : Order) => order.regionId.or ((order.postId.bind (Table.row currentPosts)).bind (·.regionId))
  refuse (eligibleOrders.find? fun entry => (regionOf entry.2).isNone) fun entry =>
    badRequest ("Order #" ++ toString entry.1 ++ " has no region")
  forEach (approveRegion requester) (groupBy (·.1) (eligibleOrders.filterMap fun entry => (regionOf entry.2).map (·,entry)))
  pure eligibleOrders.length
def rejectReturnRequests (orderIds : List Nat) (requester : Option Requester) : Operation Nat := do
  require (!orderIds.isEmpty) (badRequest "Order IDs required")
  let rejected ← collect (fun orderId => do
    let order ← findOrderById orderId
    if returnAwaited order then
      updateOrder orderId {returnRequested:=some false} (requester.map (·.id))
      pure true
    else pure false) orderIds.eraseDups
  require (rejected.contains true) (notFound "No return-requested orders found")
  pure (rejected.filter id).length

structure AssignReply where
  idempotent : Bool
  postId : Nat
  postCreated : Bool
deriving DecidableEq, Repr
def newestSentPost (courierId : Nat) : Operation (Option (Nat × Post)) :=
  call (.findNewestPost fun _ post => post.courierId == courierId && post.status == .sent)
def scanAssignOrder (now : Nat) (requester : Requester) (qrToken : String) : Operation AssignReply := do
  let (orderId,order) ← call (.findOrderByQrToken qrToken)
  let courierBranchId ← findCourierBranchId requester.id
  let orderBranchId ← found order.branchId (badRequest "Order filialga biriktirilmagan")
  require (orderBranchId == courierBranchId) (forbidden "Boshqa filial orderi — qabul qila olmaysiz")
  require (order.courierId.all (· == requester.id)) (badRequest "Order allaqachon boshqa courierga biriktirilgan")
  let already := order.courierId == some requester.id && order.status == .onTheRoad
  require (already || [.new,.received,.waitingCustomer].contains order.status)
    (badRequest "Order holati noto'g'ri: faqat NEW, RECEIVED yoki WAITING_CUSTOMER bo'lishi kerak")
  let own ← findIfGiven order.postId fun postId => findPost fun key post => key == postId && post.courierId == requester.id
  let target ← orFind own (newestSentPost requester.id)
  let (targetId,_) ← orInsert target (emptyPost requester.id order.regionId none .sent)
  if already then pure {idempotent:=true,postId:=targetId,postCreated:=false}
  else do
    onlyIf (order.status == .new) (updateOrder orderId {status:=some .received} (some requester.id))
    updateOrder orderId
      {courierId:=some (some requester.id),assignedAt:=some (some now),status:=some .onTheRoad,postId:=some (some targetId)}
      (some requester.id)
    onlyIf (order.postId != some targetId) (tolerate do
      addToPost targetId 1 order.totalPrice
      let _ ← findPost (byId targetId)
      pure ())
    pure {idempotent:=false,postId:=targetId,postCreated:=target.isNone}

def assignOrder (now requesterId courierId targetId : Nat) (entry : Nat × Order) : Operation Unit := do
  onlyIf (entry.2.status == .new) (updateOrder entry.1 {status:=some .received} (some requesterId))
  updateOrder entry.1
    {courierId:=some (some courierId),assignedAt:=some (some now),status:=some .onTheRoad,postId:=some (some targetId)}
    (some requesterId)
-- The last statement of the try block, unless it has failed before.
def saveAssigned (target : Nat × Post) (assigned : Table Order) (failure : Option RpcError) : Operation (Option RpcError) :=
  match failure with
  | some error => pure (some error)
  | none => do
    match ← (savePost target.1 {target.2 with
      orderQuantity:=target.2.orderQuantity+assigned.length,postTotalPrice:=target.2.postTotalPrice+rowsTotal assigned}).attempt with
    | .ok _ => pure none
    | .error error => pure (some error)
-- The orders assigned so far go back to what was read of them.
def unassign (requesterId : Nat) (entry : Nat × Order) : Operation Unit :=
  tolerate (updateOrder entry.1
    {courierId:=some entry.2.courierId,assignedAt:=some entry.2.assignedAt,status:=some entry.2.status,postId:=some entry.2.postId}
    (some requesterId))
def assignOrdersToCourier (now : Nat) (requester : Requester) (givenIds : List Nat) (courierId : Nat) : Operation AssignReply := do
  let orderIds := givenIds.eraseDups
  require (!orderIds.isEmpty) (badRequest "order_ids bo‘sh bo‘lishi mumkin emas")
  let assignment ← found (← findBranchAssignmentByUserId requester.id)
    (forbidden "Manager yoki registrator filialga biriktirilmagan")
  require (assignment.role == .manager || assignment.role == .registrator)
    (forbidden "Faqat MANAGER yoki REGISTRATOR orderlarni courierga ommaviy biriktira oladi")
  let branchUsers ← findBranchUsersByBranchId assignment.branchId
  require (branchUsers.any fun entry => entry.1 == courierId && entry.2.role == .courier)
    (badRequest "Courier ushbu filialga COURIER sifatida biriktirilmagan")
  let orders ← findEach orderIds
  let firstBranchId ← found (orders.head?.bind fun entry => getOrderBranchScope entry.2)
    (badRequest "Order(lar) filialga biriktirilmagan")
  require (firstBranchId == assignment.branchId)
    (forbidden "Manager/registrator faqat o'z filiali orderlarini biriktira oladi")
  require (orders.all fun entry => getOrderBranchScope entry.2 == some firstBranchId)
    (badRequest "Orderlar aralash filialdan: faqat bitta filial orderlarini tanlang")
  refuse (orders.find? fun entry => !([.new,.received,.waiting].contains entry.2.status)) fun entry =>
    badRequest ("Order #" ++ toString entry.1 ++ " holati noto'g'ri: faqat NEW, RECEIVED yoki WAITING bo'lishi kerak")
  refuse (orders.find? fun entry => entry.2.courierId.any (· != courierId)) fun entry =>
    badRequest ("Order #" ++ toString entry.1 ++ " allaqachon boshqa courierga biriktirilgan")
  let existing ← newestSentPost courierId
  let target ← orInsert existing (emptyPost courierId (orders.head?.bind fun entry => entry.2.regionId) none .sent)
  let (assigned,failure) ← untilFailure (assignOrder now requester.id courierId target.1) orders
  match ← saveAssigned target assigned failure with
  | none => pure {idempotent:=false,postId:=target.1,postCreated:=existing.isNone}
  | some error => do
    forEach (unassign requester.id) assigned
    onlyIf existing.isNone (tolerate (call (.removePost target.1)))
    fail error

end Elchi.Logistics
