import Mathlib.Algebra.Order.Ring.Int
import Mathlib.Data.List.Basic
namespace Elchi

inductive Role where
  | superadmin | admin | courier | registrator | market | customer | operator | marketOperator | manager | branch | investor
deriving DecidableEq, Repr

inductive OrderStatus where
  | created | new | received | onTheRoad | waiting | waitingCustomer | sold | cancelled | returnedToMarket
  | paid | partlyPaid | cancelledSent | closed
deriving DecidableEq, Repr

inductive CashboxType where
  | main | forCourier | forMarket | branch
deriving DecidableEq, Repr

inductive OperationType where
  | income | expense
deriving DecidableEq, Repr

inductive SourceType where
  | courierPayment | branchToMain | marketPayment | manualExpense | manualIncome | correction | salary | sell
  | cancel | extraCost | bills
deriving DecidableEq, Repr

inductive PaymentMethod where
  | cash | click | clickToMarket
deriving DecidableEq, Repr

inductive WhereDeliver where
  | center | address
deriving DecidableEq, Repr

inductive BranchOwnership where
  | owned | partner
deriving DecidableEq, Repr

inductive CourierCompensationMode where
  | salaryOnly | perOrder | salaryPlusPerOrder
deriving DecidableEq, Repr

inductive SettlementStatus where
  | pending | courierSettled | branchSettled | marketSettled
deriving DecidableEq, Repr

-- What an RPC handler throws: the HTTP status it maps to and the text.
structure RpcError where
  statusCode : Nat
  message : String
deriving DecidableEq, Repr

def badRequest (message : String) : RpcError := ⟨400,message⟩
def forbidden (message : String) : RpcError := ⟨403,message⟩
def notFound (message : String) : RpcError := ⟨404,message⟩

-- JavaScript whitespace, as `trim` removes it at both ends.
def jsSpace (c : Char) : Bool :=
  c.toNat ∈ [9,10,11,12,13,32,160,5760,8192,8193,8194,8195,8196,8197,8198,8199,8200,8201,8202,8232,8233,8239,8287,12288,65279]
def jsTrim (text : String) : String :=
  String.ofList ((text.toList.dropWhile jsSpace).reverse.dropWhile jsSpace).reverse

-- Money is a whole number of tiyin; a message shows it in so'm as a JavaScript number does.
def soum (amount : Int) : String :=
  let whole := toString (amount.natAbs / 100)
  let rest := amount.natAbs % 100
  let text :=
    if rest = 0 then whole
    else if rest % 10 = 0 then whole ++ "." ++ toString (rest / 10)
    else if rest < 10 then whole ++ ".0" ++ toString rest
    else whole ++ "." ++ toString rest
  if amount < 0 then "-" ++ text else text

theorem error_bind_parts {x : Except ε α} {f : α → Except ε β} (result : x.bind f = .ok b) :
    ∃ a,x = .ok a ∧ f a = .ok b := by
  cases x with
  | error e => cases result
  | ok a => exact ⟨a,rfl,result⟩

end Elchi
