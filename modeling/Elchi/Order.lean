import Elchi.Common
namespace Elchi.Orders

def statusText : OrderStatus → String
  | .created => "created"
  | .new => "new"
  | .received => "received"
  | .onTheRoad => "on the road"
  | .waiting => "waiting"
  | .waitingCustomer => "waiting_customer"
  | .sold => "sold"
  | .cancelled => "cancelled"
  | .returnedToMarket => "returned_to_market"
  | .paid => "paid"
  | .partlyPaid => "partly_paid"
  | .cancelledSent => "cancelled (sent)"
  | .closed => "closed"

def soldStates : List OrderStatus := [.sold,.paid,.partlyPaid]
def isSold (status : OrderStatus) : Bool := soldStates.contains status

-- ORDER_STATUS_TRANSITIONS
def transitions : OrderStatus → List OrderStatus
  | .created => [.new,.received,.cancelled]
  | .new => [.received,.cancelled]
  | .received => [.onTheRoad,.waiting,.cancelled]
  | .onTheRoad => [.waiting,.waitingCustomer,.cancelled]
  | .waitingCustomer => [.onTheRoad,.waiting,.returnedToMarket,.cancelled]
  | .waiting => [.onTheRoad,.sold,.partlyPaid,.paid,.cancelled,.returnedToMarket,.closed]
  | .sold => [.paid,.waiting,.closed]
  | .partlyPaid => [.paid,.waiting,.closed]
  | .paid => [.waiting,.closed]
  | .cancelled => [.waiting,.cancelledSent,.closed]
  | .returnedToMarket => []
  | .cancelledSent => [.cancelled,.closed]
  | .closed => [.waiting]
def isValidStatusTransition (old next : OrderStatus) : Bool := old == next || (transitions old).contains next

inductive OrderHolderType where
  | hq | branch | courier | market
deriving DecidableEq, Repr
inductive OrderSource where
  | internal | external | branch
deriving DecidableEq, Repr

-- The columns of `orders`; the id is the row's key. Times are in milliseconds.
structure Order where
  marketId : Nat
  customerId : Nat
  productQuantity : Nat
  whereDeliver : WhereDeliver
  totalPrice : Int
  marketTariff : Option Int
  courierTariff : Option Int
  courierShare : Option Int
  branchShare : Option Int
  branchCashboxAmount : Option Int
  toBePaid : Int
  paidAmount : Int
  status : OrderStatus
  comment : Option String
  operator : Option String
  operatorId : Option Nat
  postId : Option Nat
  canceledPostId : Option Nat
  returnRequested : Bool
  proofFiles : Option (List String)
  soldAt : Option Nat
  districtId : Option Nat
  regionId : Option Nat
  branchId : Option Nat
  homeBranchId : Option Nat
  currentBatchId : Option Nat
  courierId : Option Nat
  assignedAt : Option Nat
  holderType : OrderHolderType
  holderBranchId : Option Nat
  holderCourierId : Option Nat
  lastHandoverAt : Option Nat
  lastHandoverBy : Option Nat
  returnReason : Option String
  address : Option String
  qrCodeToken : Option String
  parentOrderId : Option Nat
  externalId : Option String
  source : OrderSource
  isDeleted : Bool
  deletedAt : Option Nat
  createdAt : Nat
  updatedAt : Nat
deriving DecidableEq, Repr

structure OrderItem where
  productId : Nat
  quantity : Nat
deriving DecidableEq, Repr

structure OrderSettlement where
  courierId : Option Nat
  branchId : Option Nat
  marketId : Option Nat
  courierAmount : Int
  branchAmount : Int
  marketAmount : Int
  status : SettlementStatus
  courierToBranchAt : Option Nat
  courierToBranchBy : Option Nat
  branchToHqAt : Option Nat
  branchToHqBy : Option Nat
  hqToMarketAt : Option Nat
  hqToMarketBy : Option Nat
  isDeleted : Bool
deriving DecidableEq, Repr

-- One order with what hangs on its id: its line items and its settlement row.
structure OrderRow where
  order : Order
  items : List OrderItem
  settlement : Option OrderSettlement
deriving DecidableEq, Repr

-- finance.cashbox.update_balance as the order service enqueues it; the payment method is CASH.
structure BalanceLeg where
  userId : Nat
  cashboxType : CashboxType
  amount : Int
  operationType : OperationType
  sourceType : SourceType
  sourceId : Nat
  createdBy : Nat
  comment : String
  proofFiles : List String
  dedupEpoch : String
deriving DecidableEq, Repr

inductive FinancialSource where
  | sellProfit | sellExtraCost | cancelExtraCost | manualIncome | manualExpense | salary | correction | bills
deriving DecidableEq, Repr

-- The finance events of the outbox.
inductive OrderEvent where
  | balance (leg : BalanceLeg)
  | financialBalance (amount : Int) (source : FinancialSource) (orderId : Nat) (relatedUserId : Nat) (comment : String)
  | earningRecord (orderId operatorId marketId : Nat) (totalPrice : Int)
  | earningRemove (orderId : Nat)
deriving DecidableEq, Repr

def OrderEvent.leg? : OrderEvent → Option BalanceLeg
  | .balance leg => some leg
  | _ => none
def legsOf (events : List OrderEvent) : List BalanceLeg := events.filterMap OrderEvent.leg?

structure Requester where
  id : Nat
  roles : List Role
  branchId : Option Nat
deriving DecidableEq, Repr

def Requester.hasRole (requester : Requester) (role : Role) : Bool := requester.roles.contains role
def Requester.isSuperAdmin (requester : Requester) : Bool := requester.hasRole .superadmin
def Requester.isCourier (requester : Requester) : Bool := requester.hasRole .courier
def Requester.isManager (requester : Requester) : Bool := requester.hasRole .manager
def Requester.isManagerRequester (requester : Requester) : Bool := requester.isManager && !requester.isCourier

inductive ExpenseProofCondition where
  | sellAny | sellExtraCost | sellZeroTotal | cancelAny | cancelExtraCost | cancelZeroTotal
deriving DecidableEq, Repr

structure Market where
  tariffHome : Option Int
  tariffCenter : Option Int
  expenseProofConditions : List ExpenseProofCondition
deriving DecidableEq, Repr
structure Staff where
  tariffHome : Option Int
  tariffCenter : Option Int
  compensationMode : Option CourierCompensationMode
deriving DecidableEq, Repr
structure Branch where
  ownership : Option BranchOwnership
  perOrderShare : Option Int
deriving DecidableEq, Repr
structure ExtraCostRow where
  amount : Int
  createdAt : Nat
deriving DecidableEq, Repr

-- What the other services answer to one request, and its clock. A failed call answers as a
-- missing row does. `extraCosts user order` is the latest EXTRA_COST history row of an order
-- over all cashboxes of that user id.
structure Lookups where
  posts : Nat → Option (Option Nat)
  markets : Nat → Option Market
  couriers : Nat → Option Staff
  users : Nat → Option Staff
  branches : Nat → Option Branch
  cashboxes : Nat → CashboxType → Option Int
  extraCosts : Nat → Nat → Option ExtraCostRow
  hqBranchId : Option Nat
  wasSentFromHqToBranch : Nat → Bool
  fileExists : String → Bool
  now : Nat

def tariffOf (place : WhereDeliver) (home center : Option Int) : Int :=
  match place with
  | .center => center.getD 0
  | .address => home.getD 0
def Market.tariff (market : Market) (place : WhereDeliver) : Int := tariffOf place market.tariffHome market.tariffCenter
def Staff.tariff (staff : Staff) (place : WhereDeliver) : Int := tariffOf place staff.tariffHome staff.tariffCenter

def computeSellProfit (marketTariff courierShare branchShare : Int) : Int := marketTariff - courierShare - branchShare
def resolveCourierShare (courier : Staff) (courierTariff : Int) : Int :=
  if courier.compensationMode = some .salaryOnly then 0 else courierTariff
-- A manager's sale keeps the full tariff.
def resolveSaleActorShare (isManagerSale : Bool) (financialActor : Staff) (tariff : Int) : Int :=
  if isManagerSale then tariff else resolveCourierShare financialActor tariff
def resolveBranchCashboxSaleAmount (_totalPrice branchPayable : Int) (_isManagerSale : Bool) : Int := branchPayable

def resolveSettlementBranchId (lookups : Lookups) (order : Order) : Option Nat :=
  match order.holderBranchId.or order.branchId with
  | none => none
  | some branchId => if some branchId = lookups.hqBranchId then none else some branchId
def resolveBranchShare (lookups : Lookups) (branchId : Option Nat) : Int :=
  match branchId.bind lookups.branches with
  | some branch =>
    if branch.ownership = some .partner then
      let share := branch.perOrderShare.getD 0
      if share > 0 then share else 0
    else 0
  | none => 0

-- '0' is the unassigned sentinel.
def normalizeCourierId (value : Option Nat) : Option Nat := if value = some 0 then none else value

def resolveActorCourierId (requester : Requester) (order : Order) (post : Option (Option Nat)) : Except RpcError Nat :=
  let postCourierId := normalizeCourierId (post.getD none)
  let holderCourierId := normalizeCourierId order.holderCourierId
  let orderCourierId := normalizeCourierId order.courierId
  let resolvedCourierId := postCourierId.or (holderCourierId.or orderCourierId)
  if requester.isCourier then
    if postCourierId = some requester.id ∨ holderCourierId = some requester.id ∨ orderCourierId = some requester.id then
      .ok requester.id
    else .error (badRequest "Order is not assigned to this courier")
  else if requester.isManager then
    if requester.branchId.isSome ∧ (requester.branchId = order.holderBranchId ∨ requester.branchId = order.branchId) then
      .ok (resolvedCourierId.getD requester.id)
    else .error (badRequest "Order is not assigned to this manager branch")
  else if requester.isSuperAdmin then
    match resolvedCourierId with
    | some courierId => .ok courierId
    | none => .error (badRequest "Order has no courier assigned")
  else .error (badRequest "Forbidden resource")

structure Holder where
  holderType : OrderHolderType
  holderBranchId : Option Nat
  holderCourierId : Option Nat
deriving DecidableEq, Repr

def resolveHolderFromState (lookups : Lookups) (branchId courierId : Option Nat) : Holder :=
  match courierId with
  | some courier => ⟨.courier,branchId,some courier⟩
  | none => match branchId with
    | some branch => if some branch = lookups.hqBranchId then ⟨.hq,none,none⟩ else ⟨.branch,some branch,none⟩
    | none => ⟨.hq,none,none⟩

-- Per-request token: the caller's request id, or the clock when there is none.
def resolveDedupEpoch (lookups : Lookups) (requestId : Option String) : String :=
  let id := jsTrim (requestId.getD "")
  if id = "" then toString lookups.now else "req:" ++ id

def isNearInTime (left right : Nat) : Bool := (left - right) + (right - left) ≤ 5000

-- A signed cashbox movement: income above zero, expense below, no event at zero.
def movement (leg : BalanceLeg) (signed : Int) : List BalanceLeg :=
  if signed > 0 then [{leg with amount:=signed,operationType:=.income}]
  else if signed < 0 then [{leg with amount:=-signed,operationType:=.expense}]
  else []

inductive ProofAction where
  | sell | cancel
deriving DecidableEq, Repr

def matchExpenseProofConditions (action : ProofAction) (extraCost totalPrice : Int) : List ExpenseProofCondition :=
  match action with
  | .cancel => .cancelAny :: ((if extraCost > 0 then [.cancelExtraCost] else []) ++
      if totalPrice > 0 then [] else [.cancelZeroTotal])
  | .sell => .sellAny :: ((if extraCost > 0 then [.sellExtraCost] else []) ++
      if totalPrice > 0 then [] else [.sellZeroTotal])

-- The proof policy of the market; the keys to store, or why the operation is refused.
def enforceOperationProof (lookups : Lookups) (market : Option Market) (action : ProofAction) (extraCost totalPrice : Int)
    (proofFileKeys : List String) (verified : Bool) : Except RpcError (List String) :=
  let keys := ((proofFileKeys.map jsTrim).filter (· ≠ "")).eraseDups
  let enabled := (market.map (·.expenseProofConditions)).getD []
  if !enabled.any fun condition => (matchExpenseProofConditions action extraCost totalPrice).contains condition then .ok keys
  else if keys = [] then
    .error (badRequest "Bu amal uchun rasm yoki video isbot majburiy. Iltimos, isbot fayl(lar)ini biriktiring.")
  else if !verified && keys.any fun key => !lookups.fileExists key then
    .error (badRequest "Isbot fayl topilmadi yoki yuklanmagan. Iltimos, isbotni qaytadan yuklang.")
  else .ok keys

def generateSaleComment (orderComment dtoComment : Option String) (extraCost : Int) (notes : List String) : String :=
  let trimmed := fun (text : Option String) => (text.map jsTrim).filter (· ≠ "")
  let parts := (trimmed orderComment).toList ++ (trimmed dtoComment).toList ++
    (if extraCost > 0 then ["!!! Bu buyurtmadan qo'shimcha " ++ soum extraCost ++ " miqdorda pul ushlab qolingan"] else []) ++
    notes.filterMap fun note => (trimmed (some note)).map ("!!! " ++ ·)
  String.intercalate "\n" parts

end Elchi.Orders
