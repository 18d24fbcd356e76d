import Elchi.DepotRows
import Elchi.OrderUpdate
import Elchi.Programs
namespace Elchi.Logistics
open RowLock Orders Programs

inductive PostStatus where
  | new | sent | received | canceled | canceledReceived
deriving DecidableEq, Repr
-- Courier 0 is nobody: the column is not nullable.
structure Post where
  courierId : Nat
  postTotalPrice : Int
  orderQuantity : Int
  regionId : Option Nat
  branchId : Option Nat
  status : PostStatus
deriving DecidableEq, Repr
inductive BranchUserRole where
  | manager | registrator | courier
deriving DecidableEq, Repr
structure Assignment where
  branchId : Nat
  role : BranchUserRole
deriving DecidableEq, Repr

-- What the operations on posts reach: their own tables, the orders of the order service, and who
-- works where. Keys are drawn in the order rows are created in.
structure World where
  posts : Table Post
  nextPost : Nat
  orders : Table Order
  assignments : Table Assignment
  couriers : List Nat
  lookups : Lookups

inductive Action where
  | findPost (sel : Nat → Post → Bool)
  | findNewestPost (sel : Nat → Post → Bool)
  | findPosts (sel : Nat → Post → Bool)
  | insertPost (post : Post)
  | savePost (id : Nat) (post : Post)
  | updatePost (id : Nat) (columns : Post → Post)
  | removePost (id : Nat)
  | findOrderById (id : Nat)
  | findOrderByQrToken (token : String)
  | findOrders (sel : Nat → Order → Bool)
  | updateOrder (id : Nat) (dto : UpdateDto) (requesterId : Option Nat)
  | findAssignment (userId : Nat)
  | findBranchUsers (branchId : Nat)
  | findCourier (id : Nat)
  | findHqBranch
  | checkDispatch (sourceBranchId destinationBranchId : Nat) (requester : Requester)
  | reply

abbrev Reply : Action → Type
  | .findPost _ => Option (Nat × Post)
  | .findNewestPost _ => Option (Nat × Post)
  | .findPosts _ => Table Post
  | .insertPost _ => Nat
  | .findOrderById _ => Order
  | .findOrderByQrToken _ => Nat × Order
  | .findOrders _ => Table Order
  | .findAssignment _ => Option Assignment
  | .findBranchUsers _ => Table Assignment
  | .findCourier _ => Bool
  | .findHqBranch => Nat
  | _ => Unit

abbrev Operation := Program Reply RpcError

-- A call is carried out and answered, carried out and its answer lost, or not carried out. Where
-- the database may choose, it takes the row of the number that comes with the fate.
inductive Fate where
  | goes (pick : Nat)
  | lost (pick : Nat)
  | fails
deriving DecidableEq, Repr

def World.live (_ : Nat) (order : Order) : Bool := !order.isDeleted && order.deletedAt.isNone
def World.order (w : World) (id : Nat) : Option Order := (w.orders.row id).filter (World.live id)
-- order.find_all with fetch_all: the newest first, and no more than this.
def maxFetchAll : Nat := 5000
def World.list (w : World) (sel : Nat → Order → Bool) : Table Order :=
  (w.orders.select fun id order => World.live id order && sel id order).reverse.take maxFetchAll

def choose (pick : Nat) (rows : Table Post) : Option (Nat × Post) := rows[pick % rows.length]?
def unavailable : RpcError := ⟨502,"request failed"⟩

def World.updateOrder (w : World) (id : Nat) (dto : UpdateDto) (requesterId : Option Nat) : World × Except RpcError Unit :=
  match w.order id with
  | none => (w,.error (notFound ("Order #" ++ toString id ++ " topilmadi")))
  | some order => match Orders.updateOrder w.lookups requesterId dto order with
    | .error error => (w,.error error)
    | .ok updated => ({w with orders:=w.orders.put id (saveOrder w.lookups.now updated order)},.ok ())

-- What a call does when it is carried out.
def World.carry (w : World) (pick : Nat) : (action : Action) → World × Except RpcError (Reply action)
  | .findPost sel => (w,.ok (choose pick (w.posts.select sel)))
  | .findNewestPost sel => (w,.ok (w.posts.select sel).getLast?)
  | .findPosts sel => (w,.ok (w.posts.select sel))
  | .insertPost post => ({w with posts:=w.posts.put w.nextPost post,nextPost:=w.nextPost+1},.ok w.nextPost)
  | .savePost id post => ({w with posts:=w.posts.put id post},.ok ())
  | .updatePost id columns => ({w with posts:=(Write.update id columns).apply w.posts},.ok ())
  | .removePost id => ({w with posts:=w.posts.select fun key _ => key != id},.ok ())
  | .findOrderById id => (w,match w.order id with
    | some order => .ok order
    | none => .error (notFound ("Order #" ++ toString id ++ " topilmadi")))
  | .findOrderByQrToken token => (w,match w.orders.select fun id order => World.live id order && order.qrCodeToken == some token with
    | entry :: _ => .ok entry
    | [] => .error (notFound "Order topilmadi"))
  | .findOrders sel => (w,.ok (w.list sel))
  | .updateOrder id dto requesterId => w.updateOrder id dto requesterId
  | .findAssignment userId => (w,.ok (w.assignments.row userId))
  | .findBranchUsers branchId => (w,.ok (w.assignments.select fun _ assignment => assignment.branchId == branchId))
  | .findCourier id => (w,.ok (w.couriers.contains id))
  | .findHqBranch => (w,match w.lookups.hqBranchId with
    | some branchId => .ok branchId
    | none => .error (notFound "HQ branch topilmadi"))
  | .checkDispatch sourceBranchId _ _ => (w,
    if w.lookups.hqBranchId = some sourceBranchId then .ok () else .error (forbidden "Post dispatch faqat HQ branch'dan ruxsat etilgan"))
  | .reply => (w,.ok ())
def World.answer (fate : Fate) (action : Action) (w : World) : World × Except RpcError (Reply action) :=
  match fate with
  | .goes pick => w.carry pick action
  | .lost pick => ((w.carry pick action).1,.error unavailable)
  | .fails => (w,.error unavailable)

def call (action : Action) : Operation (Reply action) := perform action
def findPost (sel : Nat → Post → Bool) : Operation (Option (Nat × Post)) := call (.findPost sel)
def findOrderById (id : Nat) : Operation Order := call (.findOrderById id)
def findOrders (sel : Nat → Order → Bool) : Operation (Table Order) := call (.findOrders sel)
def updateOrder (id : Nat) (dto : UpdateDto) (requesterId : Option Nat) : Operation Unit := call (.updateOrder id dto requesterId)
def insertPost (post : Post) : Operation Nat := call (.insertPost post)
def savePost (id : Nat) (post : Post) : Operation Unit := call (.savePost id post)
-- The counters of a post raised by one statement.
def addToPost (id : Nat) (quantity total : Int) : Operation Unit :=
  call (.updatePost id fun post => {post with orderQuantity:=post.orderQuantity+quantity,postTotalPrice:=post.postTotalPrice+total})

def findBranchAssignmentByUserId (userId : Nat) : Operation (Option Assignment) := lenient (call (.findAssignment userId)) none
def findBranchUsersByBranchId (branchId : Nat) : Operation (Table Assignment) := lenient (call (.findBranchUsers branchId)) []
def findCourierById (id : Nat) : Operation Bool := lenient (call (.findCourier id)) false
def findCourierBranchId (userId : Nat) : Operation Nat := do
  match ← call (.findAssignment userId) with
  | some assignment => pure assignment.branchId
  | none => fail (forbidden "Courier filialga biriktirilmagan")
def findHqBranchId : Operation Nat := call .findHqBranch

def isSystemPrivileged (requester : Requester) : Bool := requester.hasRole .superadmin || requester.hasRole .admin
def resolveScopedBranchId (requester : Requester) : Operation (Option Nat) :=
  if isSystemPrivileged requester then pure none
  else match requester.branchId with
    | some branchId => pure (some branchId)
    | none => do
      match ← findBranchAssignmentByUserId requester.id with
      | some assignment => pure (some assignment.branchId)
      | none => fail (forbidden "Foydalanuvchi branchga biriktirilmagan")
section Lookups
variable {S F : Type} {handler : Handler Reply RpcError S F} {allowed : F → Prop} {always : S → Prop} {R : S → S → Prop}

theorem steps_courierBranch (steady : Steady R) {userId : Nat} (reads : (call (.findAssignment userId)).Steps handler allowed always R) :
    (findCourierBranchId userId).Steps handler allowed always R :=
  steps_bind steady reads fun assignment => by
    cases assignment with
    | some assignment => exact steps_done steady _
    | none => exact steps_done steady _
theorem steps_scopedBranch (steady : Steady R) {requester : Requester}
    (reads : (call (.findAssignment requester.id)).Steps handler allowed always R) :
    (resolveScopedBranchId requester).Steps handler allowed always R := by
  unfold resolveScopedBranchId
  split
  · exact steps_done steady _
  · split
    · exact steps_done steady _
    · refine steps_bind steady (steps_lenient steady reads) fun assignment => ?_
      cases assignment with
      | some assignment => exact steps_done steady _
      | none => exact steps_done steady _

end Lookups

def getOrderBranchScope (order : Order) : Option Nat := order.holderBranchId.or order.branchId

-- A Map of lists, filled in the order of the items.
def groupBy [BEq κ] (key : α → κ) (items : List α) : List (κ × List α) :=
  (items.map key).eraseDups.map fun k => (k,items.filter fun item => key item == k)
theorem groupBy_parts [BEq κ] [LawfulBEq κ] {key : α → κ} {items : List α} {group : κ × List α} (member : group ∈ groupBy key items) :
    group.2 = items.filter fun item => key item == group.1 := by
  obtain ⟨k,-,rfl⟩ := List.mem_map.mp member
  rfl
theorem groupBy_keys [BEq κ] (key : α → κ) (items : List α) : (groupBy key items).map (·.1) = (items.map key).eraseDups := by
  simp [groupBy,Function.comp_def]
theorem groupBy_filled [BEq κ] [LawfulBEq κ] {key : α → κ} {items : List α} {group : κ × List α} (member : group ∈ groupBy key items) :
    group.2 ≠ [] := by
  obtain ⟨k,inside,rfl⟩ := List.mem_map.mp member
  obtain ⟨item,there,rfl⟩ := List.mem_map.mp (List.mem_eraseDups.mp inside)
  exact List.ne_nil_of_mem (List.mem_filter.mpr ⟨there,beq_self_eq_true _⟩)
theorem groupBy_covers [BEq κ] [LawfulBEq κ] (key : α → κ) {items : List α} {item : α} (member : item ∈ items) :
    ∃ group ∈ groupBy key items,item ∈ group.2 := by
  have inside : key item ∈ (items.map key).eraseDups := List.mem_eraseDups.mpr (List.mem_map_of_mem member)
  exact ⟨_,List.mem_map_of_mem inside,List.mem_filter.mpr ⟨member,beq_self_eq_true _⟩⟩
-- Two groups share no item, and none by another name of the items either.
theorem groupBy_apart [BEq κ] [LawfulBEq κ] {key : α → κ} {name : α → ι} {items : List α} (distinct : (items.map name).Nodup)
    {group other : κ × List α} (here : group ∈ groupBy key items) (there : other ∈ groupBy key items) (apart : group.1 ≠ other.1)
    {x y : α} (inside : x ∈ group.2) (within : y ∈ other.2) : name x ≠ name y := by
  rw [groupBy_parts here] at inside
  rw [groupBy_parts there] at within
  obtain ⟨left,first⟩ := List.mem_filter.mp inside
  obtain ⟨right,second⟩ := List.mem_filter.mp within
  intro same
  obtain rfl : x = y := List.inj_on_of_nodup_map distinct left right same
  exact apart ((beq_iff_eq.mp first).symm.trans (beq_iff_eq.mp second))
theorem filterMap_names {g : α → Option β} (key : α → ι) {name : β → ι} (same : ∀ x y,g x = some y → name y = key x) (items : List α) :
    ((items.filterMap g).map name).Sublist (items.map key) := by
  induction items with
  | nil => exact List.Sublist.slnil
  | cons x rest ih =>
    cases here : g x with
    | none => simpa [List.filterMap_cons,here] using ih.cons (key x)
    | some y => simpa [List.filterMap_cons,here,same x y here] using ih
def totalPrice (orders : List Order) : Int := (orders.map (·.totalPrice)).sum
def rowsTotal (orders : Table Order) : Int := totalPrice (orders.map (·.2))
def byId (id key : Nat) (_ : Post) : Bool := key == id
def emptyPost (courierId : Nat) (regionId branchId : Option Nat) (status : PostStatus) : Post :=
  {courierId:=courierId,postTotalPrice:=0,orderQuantity:=0,regionId:=regionId,branchId:=branchId,status:=status}
def orInsert (row : Option (Nat × Post)) (fresh : Post) : Operation (Nat × Post) :=
  match row with
  | some entry => pure entry
  | none => do
    let id ← insertPost fresh
    pure (id,fresh)
def findPostsOf (ids : List Nat) : Operation (Table Post) :=
  if ids.isEmpty then pure [] else call (.findPosts fun key _ => ids.contains key)
def isNewPostOf (regionId : Nat) (_ : Nat) (post : Post) : Bool := post.regionId == some regionId && post.status == .new

end Elchi.Logistics
