import Elchi.Common
import Elchi.RowLock
namespace Elchi.Finance
open RowLock

def mainCashboxUserId : Nat := 0

structure Cashbox where
  balance : Int
  balanceCash : Int
  balanceCard : Int
  cashboxType : CashboxType
  userId : Nat
  isDeleted : Bool
deriving DecidableEq, Repr

-- What one history row says of the movement itself.
structure Leg where
  operationType : OperationType
  sourceType : SourceType
  sourceId : Option Nat
  dedupEpoch : String
  sourceUserId : Option Nat
  amount : Int
  paymentMethod : PaymentMethod
deriving DecidableEq, Repr

structure CashboxHistory extends Leg where
  balanceAfter : Int
  balanceCashAfter : Int
  balanceCardAfter : Int
  createdAt : Nat
deriving DecidableEq, Repr

structure UserSalary where
  userId : Nat
  salaryAmount : Int
  haveToPay : Int
  paymentDay : Int
deriving DecidableEq, Repr

-- The rows of finance_schema that the modelled requests write, drawn from one key sequence.
inductive Row where
  | cashbox (cashbox : Cashbox)
  | userSalary (salary : UserSalary)
deriving DecidableEq, Repr

structure UpdateCashboxBalanceDto where
  cashboxId : Option Nat
  userId : Option Nat
  cashboxType : Option CashboxType
  amount : Int
  operationType : OperationType
  sourceType : SourceType
  paymentMethod : Option PaymentMethod
  sourceId : Option Nat
  dedupEpoch : Option String
  sourceUserId : Option Nat
deriving DecidableEq, Repr

inductive SettlementLevel where
  | courierToBranch | branchToHq | hqToMarket
deriving DecidableEq, Repr

-- The outbox event a payment enqueues in its own transaction.
structure SettlementAdvance where
  level : SettlementLevel
  matchValue : Nat
  amount : Int
  requesterId : Option Nat
  requestId : Option String
deriving DecidableEq, Repr

-- What a committed transaction was. `replay` is the commit of a duplicate: no row changes.
inductive Movement where
  | opened
  | balance (dto : UpdateCashboxBalanceDto)
  | balanceReplay (dto : UpdateCashboxBalanceDto)
  | payment (advance : SettlementAdvance)
  | paymentReplay
  | salary
deriving DecidableEq, Repr

structure Answer where
  statusCode : Nat
  message : String
  idempotent : Bool
deriving DecidableEq, Repr

abbrev Request := Prog Row CashboxHistory Movement (Except RpcError Answer)

def fail (error : RpcError) : Request := .done (.error error)
def answer (statusCode : Nat) (message : String) : Request := .done (.ok ⟨statusCode,message,false⟩)
def answerReplay (message : String) : Request := .done (.ok ⟨200,message,true⟩)

def sign : OperationType → Int
  | .income => 1
  | .expense => -1
def Leg.signed (leg : Leg) : Int := sign leg.operationType * leg.amount

def normalizeBalance (cashbox : Cashbox) : Cashbox :=
  {cashbox with balance:=cashbox.balanceCash + cashbox.balanceCard}

def updateBalancesByMethod (cashbox : Cashbox) (amount : Int) (operation : OperationType) (method : PaymentMethod)
    (allowNegativeOverride : Bool) : Except RpcError Cashbox :=
  let allowNegativeBalance :=
    cashbox.cashboxType == .forMarket || cashbox.cashboxType == .forCourier || allowNegativeOverride
  if method = .cash then
    let nextCash := cashbox.balanceCash + sign operation * amount
    if !allowNegativeBalance && decide (nextCash < 0) then .error (badRequest "Insufficient cash balance")
    else .ok (normalizeBalance {cashbox with balanceCash:=nextCash})
  else
    let nextCard := cashbox.balanceCard + sign operation * amount
    if !allowNegativeBalance && decide (nextCard < 0) then .error (badRequest "Insufficient card balance")
    else .ok (normalizeBalance {cashbox with balanceCard:=nextCard})

-- Every movement saves the cashbox and writes one history row with the balances just saved.
def book (now : Nat) (allowNegativeOverride : Bool) (leg : Leg) (cashbox : Cashbox) :
    Except RpcError (Cashbox × CashboxHistory) :=
  (updateBalancesByMethod cashbox leg.amount leg.operationType leg.paymentMethod allowNegativeOverride).map fun saved =>
    (saved,{leg with
      balanceAfter:=saved.balance,balanceCashAfter:=saved.balanceCash,balanceCardAfter:=saved.balanceCard,createdAt:=now})

def cashboxRow (sel : Nat → Cashbox → Bool) : Nat → Row → Bool
  | key,.cashbox cashbox => sel key cashbox
  | _,.userSalary _ => false
def byId (id : Nat) (key : Nat) (cashbox : Cashbox) : Bool := key == id && !cashbox.isDeleted
def byUserType (userId : Nat) (type : CashboxType) (_ : Nat) (cashbox : Cashbox) : Bool :=
  cashbox.userId == userId && cashbox.cashboxType == type && !cashbox.isDeleted
-- Some lookups leave out the isDeleted filter.
def byUserTypeEver (userId : Nat) (type : CashboxType) (_ : Nat) (cashbox : Cashbox) : Bool :=
  cashbox.userId == userId && cashbox.cashboxType == type

def lockCashbox (sel : Nat → Cashbox → Bool) (next : Option (Nat × Cashbox × List CashboxHistory) → Request) : Request :=
  .lock (cashboxRow sel) fun
    | some (key,.cashbox cashbox,rows) => next (some (key,cashbox,rows))
    | _ => next none
def saveCashbox (key : Nat) (cashbox : Cashbox) : Write Row :=
  .update key fun
    | .cashbox _ => .cashbox cashbox
    | other => other

def openedCashbox (userId : Nat) (type : CashboxType) : Cashbox := ⟨0,0,0,type,userId,false⟩
-- findOne ... FOR UPDATE, and a new zero cashbox in the same transaction when there is none.
def lockOrOpen (sel : Nat → Cashbox → Bool) (userId : Nat) (type : CashboxType)
    (next : Nat → Cashbox → List (Write Row) → Request) : Request :=
  lockCashbox sel fun
    | some (key,cashbox,_) => next key cashbox []
    | none => .fresh fun key =>
      next key (openedCashbox userId type) [.insert key (.cashbox (openedCashbox userId type))]

structure CreateCashboxDto where
  userId : Nat
  cashboxType : CashboxType
  balance : Option Int
  balanceCash : Option Int
  balanceCard : Option Int
deriving DecidableEq, Repr

def CreateCashboxDto.entity (dto : CreateCashboxDto) : Cashbox :=
  let balanceCash := dto.balanceCash.getD 0
  let balanceCard := dto.balanceCard.getD 0
  ⟨dto.balance.getD (balanceCash + balanceCard),balanceCash,balanceCard,dto.cashboxType,dto.userId,false⟩

-- The existence check is an unlocked read, so two creates can both insert.
def createCashbox (dto : CreateCashboxDto) : Request :=
  .find (cashboxRow (byUserType dto.userId dto.cashboxType)) fun
    | _ :: _ => answer 200 "Cashbox already exists"
    | [] => .fresh fun key =>
      .commit .opened [.insert key (.cashbox dto.entity)] [] (answer 201 "Cashbox created")

-- getCashboxBySelectorWithManager: the lock target, by id or by (user, type).
def UpdateCashboxBalanceDto.selector (dto : UpdateCashboxBalanceDto) : Except RpcError (Nat → Cashbox → Bool) :=
  match dto.cashboxId with
  | some id => .ok (byId id)
  | none => match dto.userId,dto.cashboxType with
    | some userId,some type => .ok (byUserType userId type)
    | _,_ => .error (badRequest "Either cashbox_id OR (user_id + cashbox_type) is required")

def UpdateCashboxBalanceDto.Addresses (dto : UpdateCashboxBalanceDto) (key : Nat) (cashbox : Cashbox) : Prop :=
  ∃ sel,dto.selector = .ok sel ∧ sel key cashbox = true

def UpdateCashboxBalanceDto.token (dto : UpdateCashboxBalanceDto) : String := dto.dedupEpoch.getD ""
def UpdateCashboxBalanceDto.leg (dto : UpdateCashboxBalanceDto) : Leg :=
  ⟨dto.operationType,dto.sourceType,dto.sourceId,dto.token,dto.sourceUserId,dto.amount,dto.paymentMethod.getD .cash⟩
def UpdateCashboxBalanceDto.keyed (dto : UpdateCashboxBalanceDto) : Bool := dto.sourceId.isSome || dto.token != ""

-- The business key of a history row within its cashbox (IDX_CASHBOX_HISTORY_IDEMPOTENT).
structure DedupKey where
  sourceType : SourceType
  operationType : OperationType
  sourceId : Option Nat
  dedupEpoch : String
deriving DecidableEq, Repr

def Leg.key (leg : Leg) : DedupKey := ⟨leg.sourceType,leg.operationType,leg.sourceId,leg.dedupEpoch⟩
def UpdateCashboxBalanceDto.key (dto : UpdateCashboxBalanceDto) : DedupKey := dto.leg.key
def UpdateCashboxBalanceDto.existing (dto : UpdateCashboxBalanceDto) (rows : List CashboxHistory) : Option CashboxHistory :=
  if dto.keyed then rows.find? fun row => row.key == dto.key else none

def updateBalance (now : Nat) (dto : UpdateCashboxBalanceDto) : Request :=
  if dto.amount ≤ 0 then fail (badRequest "amount must be greater than 0")
  else match dto.selector with
  | .error error => fail error
  | .ok sel => lockCashbox sel fun
    | none => fail (notFound "Cashbox not found")
    | some (id,cashbox,rows) => match dto.existing rows with
      | some _ => .commit (.balanceReplay dto) [] []
          (answerReplay "Cashbox balance already applied (idempotent replay)")
      | none => match book now (cashbox.cashboxType == .branch) dto.leg cashbox with
        | .error error => fail error
        | .ok (saved,history) => .commit (.balance dto) [saveCashbox id saved] [(id,history)]
            (answer 200 "Cashbox balance updated")

structure ManualDto where
  userId : Nat
  amount : Int
  type : Option PaymentMethod
  cashboxType : Option CashboxType
  dedupEpoch : Option String
deriving DecidableEq, Repr

def manualDto (operation : OperationType) (source : SourceType) (data : ManualDto) : UpdateCashboxBalanceDto :=
  let targetCashboxType := data.cashboxType.getD .main
  let targetUserId := if targetCashboxType = .main then mainCashboxUserId else data.userId
  ⟨none,some targetUserId,some targetCashboxType,data.amount,operation,source,some (data.type.getD .cash),none,data.dedupEpoch,none⟩
def manual (message : String) (now : Nat) (dto : UpdateCashboxBalanceDto) : Request :=
  (updateBalance now dto).reply (Except.map fun done => {done with statusCode:=200,message:=message})
def spendMoney (now : Nat) (data : ManualDto) : Request :=
  manual "Manual expense created" now (manualDto .expense .manualExpense data)
def fillTheCashbox (now : Nat) (data : ManualDto) : Request :=
  manual "Cashbox filled" now (manualDto .income .manualIncome data)

end Elchi.Finance
