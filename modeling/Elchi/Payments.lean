import Elchi.Cashbox
namespace Elchi.Finance
open RowLock

structure CourierPayment where
  courierId : Nat
  amount : Int
  paymentMethod : Option PaymentMethod
  marketId : Option Nat
  createdBy : Option Nat
  receiverUserId : Option Nat
  receiverCashboxType : Option CashboxType
  dedupEpoch : Option String
deriving DecidableEq, Repr
structure BranchPayment where
  branchId : Nat
  amount : Int
  paymentMethod : Option PaymentMethod
  createdBy : Option Nat
  dedupEpoch : Option String
deriving DecidableEq, Repr
structure MarketPayment where
  marketId : Nat
  amount : Int
  paymentMethod : Option PaymentMethod
  createdBy : Option Nat
  dedupEpoch : Option String
deriving DecidableEq, Repr

def dedupKey (dedupEpoch : Option String) : String := jsTrim (dedupEpoch.getD "")
-- Only a request with a token can be recognised as a repetition, and only its row carries a source id.
def paymentSourceId (token : String) (id : Nat) : Option Nat := if token = "" then none else some id
def isDuplicateTransfer (rows : List CashboxHistory) (source : SourceType) (id : Nat) (token : String) : Bool :=
  token != "" && rows.any fun row => row.key == ⟨source,.expense,some id,token⟩

-- The source leg of a transfer carries the key, the others do not.
def keyedLeg (source : SourceType) (id : Nat) (amount : Int) (method : PaymentMethod) (token : String) : Leg :=
  ⟨.expense,source,paymentSourceId token id,token,some id,amount,method⟩
def plainLeg (operation : OperationType) (source : SourceType) (id : Nat) (amount : Int) (method : PaymentMethod) : Leg :=
  ⟨operation,source,none,"",some id,amount,method⟩

def settlementAdvance (level : SettlementLevel) (matchValue : Nat) (amount : Int) (requester : Option Nat) (token : String) :
    SettlementAdvance :=
  ⟨level,matchValue,amount,requester,if token = "" then none else some token⟩

def CourierPayment.method (data : CourierPayment) : PaymentMethod := data.paymentMethod.getD .cash
def CourierPayment.receiver (data : CourierPayment) : Nat := data.receiverUserId.getD mainCashboxUserId
def CourierPayment.receiverType (data : CourierPayment) : CashboxType := data.receiverCashboxType.getD .main
def CourierPayment.advance (data : CourierPayment) : SettlementAdvance :=
  settlementAdvance .courierToBranch data.courierId data.amount data.createdBy (dedupKey data.dedupEpoch)

-- courier EXPENSE, then receiver INCOME
def courierToReceiver (now : Nat) (data : CourierPayment) (courier receiver : Cashbox) :
    Except RpcError ((Cashbox × CashboxHistory) × (Cashbox × CashboxHistory)) := do
  let paid ← book now false (keyedLeg .courierPayment data.courierId data.amount data.method (dedupKey data.dedupEpoch)) courier
  let got ← book now false (plainLeg .income .courierPayment data.courierId data.amount data.method) receiver
  return (paid,got)
-- the click-to-market part: receiver EXPENSE, then market EXPENSE
def receiverToMarket (now : Nat) (marketId : Nat) (amount : Int) (receiver market : Cashbox) :
    Except RpcError ((Cashbox × CashboxHistory) × (Cashbox × CashboxHistory)) := do
  let passed ← book now false (plainLeg .expense .marketPayment marketId amount .clickToMarket) receiver
  let cleared ← book now false (plainLeg .expense .marketPayment marketId amount .clickToMarket) market
  return (passed,cleared)

def courierPaid : Request := answer 201 "To'lov qabul qilindi !!! "

def paymentsFromCourier (now : Nat) (data : CourierPayment) : Request :=
  if data.amount ≤ 0 then fail (badRequest "amount must be greater than 0")
  else if data.paymentMethod = some .clickToMarket ∧ data.marketId = none then
    fail (badRequest "Click_to_market usulida market_id bo'lishi shart va majburiy !!!")
  else lockCashbox (byUserType data.courierId .forCourier) fun
    | none => fail (notFound "Courier cashbox not found")
    | some (courierKey,courier,rows) =>
      if isDuplicateTransfer rows .courierPayment data.courierId (dedupKey data.dedupEpoch) then
        .commit .paymentReplay [] [] (answerReplay "To'lov allaqachon qabul qilingan (takroriy so'rov)")
      else if data.amount > courier.balance then
        fail (badRequest ("To'lov miqdori courier qoldig'idan oshib ketdi (qoldiq: " ++ soum courier.balance ++ ")"))
      else lockOrOpen (byUserType data.receiver data.receiverType) data.receiver data.receiverType
        fun receiverKey receiver opened => match courierToReceiver now data courier receiver with
        | .error error => fail error
        | .ok ((paid,paidRow),(got,gotRow)) =>
          let writes := opened ++ [saveCashbox courierKey paid,saveCashbox receiverKey got]
          let entries := [(courierKey,paidRow),(receiverKey,gotRow)]
          match data.paymentMethod,data.marketId with
          | some .clickToMarket,some marketId => lockCashbox (byUserTypeEver marketId .forMarket) fun
            | none => fail (notFound "Market cashbox topilmadi")
            | some (marketKey,market,_) => match receiverToMarket now marketId data.amount got market with
              | .error error => fail error
              | .ok ((passed,passedRow),(cleared,clearedRow)) =>
                .commit (.payment data.advance) (writes ++ [saveCashbox receiverKey passed,saveCashbox marketKey cleared])
                  (entries ++ [(receiverKey,passedRow),(marketKey,clearedRow)]) courierPaid
          | _,_ => .commit (.payment data.advance) writes entries courierPaid

def branchToMain (now : Nat) (data : BranchPayment) (branch main : Cashbox) :
    Except RpcError ((Cashbox × CashboxHistory) × (Cashbox × CashboxHistory)) := do
  let method := data.paymentMethod.getD .cash
  let paid ← book now false (keyedLeg .branchToMain data.branchId data.amount method (dedupKey data.dedupEpoch)) branch
  let got ← book now false (plainLeg .income .branchToMain data.branchId data.amount method) main
  return (paid,got)

def paymentFromBranchToMain (now : Nat) (data : BranchPayment) : Request :=
  if data.amount ≤ 0 then fail (badRequest "amount must be greater than 0")
  else lockCashbox (byUserTypeEver data.branchId .branch) fun
    | none => fail (notFound "Branch cashbox not found")
    | some (branchKey,branch,rows) =>
      if isDuplicateTransfer rows .branchToMain data.branchId (dedupKey data.dedupEpoch) then
        .commit .paymentReplay [] [] (answerReplay "To'lov allaqachon qabul qilingan (takroriy so'rov)")
      else lockOrOpen (byUserTypeEver mainCashboxUserId .main) mainCashboxUserId .main
        fun mainKey main opened => match branchToMain now data branch main with
        | .error error => fail error
        | .ok ((paid,paidRow),(got,gotRow)) =>
          .commit (.payment (settlementAdvance .branchToHq data.branchId data.amount data.createdBy (dedupKey data.dedupEpoch)))
            (opened ++ [saveCashbox branchKey paid,saveCashbox mainKey got])
            [(branchKey,paidRow),(mainKey,gotRow)] (answer 200 "Branch to main payment successful")

-- Both sides are expenses: a market's cashbox is what HQ owes it, and paying clears it.
def mainToMarket (now : Nat) (data : MarketPayment) (main market : Cashbox) :
    Except RpcError ((Cashbox × CashboxHistory) × (Cashbox × CashboxHistory)) := do
  let method := data.paymentMethod.getD .cash
  let paid ← book now false (keyedLeg .marketPayment data.marketId data.amount method (dedupKey data.dedupEpoch)) main
  let cleared ← book now false (plainLeg .expense .marketPayment data.marketId data.amount method) market
  return (paid,cleared)

def paymentsToMarket (now : Nat) (data : MarketPayment) : Request :=
  if data.amount ≤ 0 then fail (badRequest "amount must be greater than 0")
  else lockCashbox (byUserTypeEver mainCashboxUserId .main) fun
    | none => fail (notFound "Main cashbox not found")
    | some (mainKey,main,rows) => lockCashbox (byUserTypeEver data.marketId .forMarket) fun
      | none => fail (notFound "Market cashbox not found")
      | some (marketKey,market,_) =>
        if isDuplicateTransfer rows .marketPayment data.marketId (dedupKey data.dedupEpoch) then
          .commit .paymentReplay [] [] (answerReplay "To'lov allaqachon bajarilgan (takroriy so'rov)")
        else match mainToMarket now data main market with
        | .error error => fail error
        | .ok ((paid,paidRow),(cleared,clearedRow)) =>
          .commit (.payment (settlementAdvance .hqToMarket data.marketId data.amount data.createdBy (dedupKey data.dedupEpoch)))
            [saveCashbox mainKey paid,saveCashbox marketKey cleared]
            [(mainKey,paidRow),(marketKey,clearedRow)] (answer 200 ("Marketga " ++ soum data.amount ++ " so'm to'landi"))

structure CreateSalaryDto where
  userId : Nat
  salaryAmount : Int
  haveToPay : Option Int
  paymentDay : Option Int
deriving DecidableEq, Repr
structure UpdateSalaryDto where
  userId : Nat
  salaryAmount : Option Int
  haveToPay : Option Int
  paymentDay : Option Int
  increaseHaveToPayBy : Option Int
deriving DecidableEq, Repr

def salaryRow (userId : Nat) : Nat → Row → Bool
  | _,.userSalary salary => salary.userId == userId
  | _,.cashbox _ => false
def saveSalary (key : Nat) (salary : UserSalary) : Write Row :=
  .update key fun
    | .userSalary _ => .userSalary salary
    | other => other

def createSalary (dto : CreateSalaryDto) : Request :=
  if dto.salaryAmount ≤ 0 then fail (badRequest "salary_amount must be greater than 0")
  else .find (salaryRow dto.userId) fun
    | _ :: _ => fail (badRequest "Salary row already exists for this user")
    | [] =>
      let paymentDay := dto.paymentDay.getD 1
      if paymentDay < 1 ∨ paymentDay > 31 then fail (badRequest "payment_day must be between 1 and 31")
      else .fresh fun key => .commit .salary
        [.insert key (.userSalary ⟨dto.userId,dto.salaryAmount,dto.haveToPay.getD dto.salaryAmount,paymentDay⟩)] []
        (answer 201 "Salary created")

def UpdateSalaryDto.apply (dto : UpdateSalaryDto) (salary : UserSalary) : Except RpcError UserSalary :=
  if dto.salaryAmount.any (· ≤ 0) then .error (badRequest "salary_amount must be greater than 0")
  else if dto.paymentDay.any fun day => day < 1 || day > 31 then .error (badRequest "payment_day must be between 1 and 31")
  else .ok {salary with
    salaryAmount:=dto.salaryAmount.getD salary.salaryAmount,
    haveToPay:=dto.haveToPay.getD salary.haveToPay + dto.increaseHaveToPayBy.getD 0,
    paymentDay:=dto.paymentDay.getD salary.paymentDay}

-- Read and saved without a lock; no cashbox is involved.
def updateSalary (dto : UpdateSalaryDto) : Request :=
  .find (salaryRow dto.userId) fun
    | (key,.userSalary salary) :: _ => match dto.apply salary with
      | .error error => fail error
      | .ok saved => .commit .salary [saveSalary key saved] [] (answer 200 "Salary updated")
    | _ => fail (notFound "Salary not found for this user")

-- The requests that move money or open cashboxes, with their arguments and the time they run at.
inductive Call where
  | createCashbox (dto : CreateCashboxDto)
  | updateBalance (now : Nat) (dto : UpdateCashboxBalanceDto)
  | spendMoney (now : Nat) (data : ManualDto)
  | fillTheCashbox (now : Nat) (data : ManualDto)
  | paymentsFromCourier (now : Nat) (data : CourierPayment)
  | paymentFromBranchToMain (now : Nat) (data : BranchPayment)
  | paymentsToMarket (now : Nat) (data : MarketPayment)
  | createSalary (dto : CreateSalaryDto)
  | updateSalary (dto : UpdateSalaryDto)
deriving DecidableEq, Repr

def Call.request : Call → Request
  | .createCashbox dto => Finance.createCashbox dto
  | .updateBalance now dto => Finance.updateBalance now dto
  | .spendMoney now data => Finance.spendMoney now data
  | .fillTheCashbox now data => Finance.fillTheCashbox now data
  | .paymentsFromCourier now data => Finance.paymentsFromCourier now data
  | .paymentFromBranchToMain now data => Finance.paymentFromBranchToMain now data
  | .paymentsToMarket now data => Finance.paymentsToMarket now data
  | .createSalary dto => Finance.createSalary dto
  | .updateSalary dto => Finance.updateSalary dto

end Elchi.Finance
