import Elchi.Order
import Elchi.RowLock
namespace Elchi.Orders
open RowLock

-- A column is absent from the dto, or given; a nullable column may be given as null.
structure UpdateDto where
  marketId : Option Nat := none
  customerId : Option Nat := none
  whereDeliver : Option WhereDeliver := none
  totalPrice : Option Int := none
  marketTariff : Option (Option Int) := none
  courierTariff : Option (Option Int) := none
  courierShare : Option (Option Int) := none
  branchShare : Option (Option Int) := none
  branchCashboxAmount : Option (Option Int) := none
  toBePaid : Option Int := none
  paidAmount : Option Int := none
  status : Option OrderStatus := none
  returnRequested : Option Bool := none
  comment : Option String := none
  operator : Option String := none
  postId : Option (Option Nat) := none
  canceledPostId : Option (Option Nat) := none
  soldAt : Option (Option Nat) := none
  branchId : Option (Option Nat) := none
  currentBatchId : Option (Option Nat) := none
  courierId : Option (Option Nat) := none
  assignedAt : Option (Option Nat) := none
  returnReason : Option (Option String) := none
  districtId : Option (Option Nat) := none
  regionId : Option (Option Nat) := none
  address : Option (Option String) := none
  qrCodeToken : Option String := none
  externalId : Option (Option String) := none
  source : Option OrderSource := none
  proofFiles : Option (Option (List String)) := none
  items : Option (List OrderItem) := none
deriving DecidableEq, Repr

structure SellDto where
  comment : Option String := none
  extraCost : Option Int := none
  paidAmount : Option Int := none
  proofFileKeys : List String := []
  proofFileKeysVerified : Bool := false
deriving DecidableEq, Repr
structure PartlySellItem where
  productId : Nat
  quantity : Int
deriving DecidableEq, Repr
structure PartlySellDto where
  orderItemInfo : List PartlySellItem
  totalPrice : Int
  extraCost : Option Int := none
  comment : Option String := none
  proofFileKeys : List String := []
  proofFileKeysVerified : Bool := false
deriving DecidableEq, Repr

inductive ProviderAction where
  | sell | cancel | handBack
deriving DecidableEq, Repr

-- A transfer batch as its own tables have it; a batch that is not `forward` returns orders.
structure TransferBatch where
  id : Nat
  forward : Bool
  targetRegionId : Nat
  destinationBranchId : Nat
deriving DecidableEq, Repr

-- The requests that write an order's status, with what the rest of the system answers them.
inductive Call where
  | sell (lookups : Lookups) (requester : Requester) (id : Nat) (dto : SellDto) (requestId : Option String)
  | partlySell (lookups : Lookups) (requester : Requester) (id : Nat) (dto : PartlySellDto) (requestId : Option String)
      (qrCodeToken : String)
  | cancel (lookups : Lookups) (requester : Requester) (id : Nat) (dto : SellDto) (requestId : Option String)
  | rollback (lookups : Lookups) (requester : Requester) (id : Nat) (targetStatus requestId : Option String)
  | update (lookups : Lookups) (requesterId : Option Nat) (id : Nat) (dto : UpdateDto)
  | provider (now id : Nat) (action : ProviderAction)
  | sendBatch (now : Nat) (batch : TransferBatch) (sentBatchId : Nat) (orderIds : List Nat)
  | receiveBatch (now requesterId : Nat) (batch : TransferBatch) (orderIds : List Nat)
  | receiveBatchOrders (now requesterId : Nat) (batch : TransferBatch) (selected remaining : List Nat)
  | cancelBatch (now : Nat) (batch : TransferBatch)

-- The requests that move money when they commit, which they do once.
def Call.settles : Call → Bool
  | .sell _ _ _ _ _ => true
  | .partlySell _ _ _ _ _ _ => true
  | .cancel _ _ _ _ _ => true
  | .rollback _ _ _ _ _ => true
  | _ => false

-- A committed transaction: whose it is, the order as the request first read it, and the
-- partial children it saves with it.
structure Note where
  call : Call
  loaded : Option Order := none
  children : Table OrderRow := []

inductive Answer where
  | success (statusCode : Nat) (message : String)
  | order (order : Order)
deriving DecidableEq, Repr

abbrev Request := Prog OrderRow OrderEvent Note (Except RpcError Answer)
abbrev Service := Machine OrderRow OrderEvent Note (Except RpcError Answer)

def fail (error : RpcError) : Request := .done (.error error)
def success (statusCode : Nat) (message : String) : Request := .done (.ok (.success statusCode message))

-- findById and FOR UPDATE by id: the first leaves out rows marked deleted either way, the
-- second only those with a deletion time, which every query leaves out.
def liveOrder (id : Nat) (key : Nat) (row : OrderRow) : Bool :=
  key == id && !row.order.isDeleted && row.order.deletedAt.isNone
def storedOrder (id : Nat) (key : Nat) (row : OrderRow) : Bool := key == id && row.order.deletedAt.isNone

def findById (id : Nat) (next : OrderRow → Request) : Request :=
  .find (liveOrder id) fun
    | (_,row) :: _ => next row
    | [] => fail (notFound ("Order #" ++ toString id ++ " topilmadi"))

end Elchi.Orders
