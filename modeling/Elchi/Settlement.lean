import Elchi.Fifo
import Elchi.OrderRollback
namespace Elchi.Settlement
open RowLock Orders

-- An order and its settlement row are rows of two tables, with locks of their own. They share
-- one key space here: the order has the even key, its settlement row the odd one.
inductive Record where
  | order (row : OrderRow)
  | settlement (createdAt : Nat) (row : OrderSettlement)
deriving DecidableEq, Repr

def orderKey (id : Nat) : Nat := 2*id
def settlementKey (id : Nat) : Nat := 2*id+1
def Record.order? : Record → Option OrderRow
  | .order row => some row
  | .settlement _ _ => none
def Record.settlement? : Record → Option OrderSettlement
  | .order _ => none
  | .settlement _ row => some row
def Record.createdAt : Record → Nat
  | .order row => row.order.createdAt
  | .settlement createdAt _ => createdAt
def onOrder (save : OrderRow → OrderRow) : Record → Record
  | .order row => .order (save row)
  | record => record
def onSettlement (save : OrderSettlement → OrderSettlement) : Record → Record
  | .settlement createdAt row => .settlement createdAt (save row)
  | record => record

inductive Level where
  | courierToBranch | branchToHq | hqToMarket
deriving DecidableEq, Repr

-- The configs of advanceSettlement.
def Level.participant : Level → OrderSettlement → Option Nat
  | .courierToBranch,row => row.courierId
  | .branchToHq,row => row.branchId
  | .hqToMarket,row => row.marketId
def Level.fromStatus : Level → SettlementStatus
  | .courierToBranch => .pending
  | .branchToHq => .courierSettled
  | .hqToMarket => .branchSettled
def Level.toStatus : Level → SettlementStatus
  | .courierToBranch => .courierSettled
  | .branchToHq => .branchSettled
  | .hqToMarket => .marketSettled
def Level.amount : Level → OrderSettlement → Int
  | .courierToBranch,row => row.courierAmount
  | .branchToHq,row => row.branchAmount
  | .hqToMarket,row => row.marketAmount
def Level.leg (level : Level) (row : OrderSettlement) : Int := max (level.amount row) 0
def Level.stamp (level : Level) (now actor : Nat) (row : OrderSettlement) : OrderSettlement :=
  match level with
  | .courierToBranch => {row with status:=.courierSettled,courierToBranchAt:=some now,courierToBranchBy:=some actor}
  | .branchToHq => {row with status:=.branchSettled,branchToHqAt:=some now,branchToHqBy:=some actor}
  | .hqToMarket => {row with status:=.marketSettled,hqToMarketAt:=some now,hqToMarketBy:=some actor}

-- order.settlement.advance; without a requester the code stamps 'system'.
structure Advance where
  level : Level
  matchValue : Option Nat
  amount : Int
  requesterId : Option Nat
  now : Nat
deriving DecidableEq, Repr
structure AdvanceResult where
  settledOrderIds : List Nat
  allocated : Int
  leftover : Int
deriving DecidableEq, Repr

-- A committed transaction. An advance names the rows it settles, with the leg amounts it read;
-- a rollback the settlement row its guard read.
inductive Note where
  | advanced (data : Advance) (settled : List (Nat × Int)) (result : AdvanceResult)
  | rolledBack (id : Nat) (guarded : Option OrderSettlement)
deriving DecidableEq, Repr
inductive Answer where
  | advanced (result : AdvanceResult)
  | rolledBack (message : String)
deriving DecidableEq, Repr
abbrev Request := Prog Record OrderEvent Note (Except RpcError Answer)
def fail (error : RpcError) : Request := .done (.error error)

def candidate (level : Level) (participant : Nat) (_key : Nat) (record : Record) : Bool :=
  record.settlement?.any fun row => level.participant row == some participant && row.status == level.fromStatus && !row.isDeleted
-- ORDER BY createdAt ASC, equal times in the order of the keys.
def older (left right : Nat × Record) : Bool :=
  decide (left.2.createdAt < right.2.createdAt) || left.2.createdAt == right.2.createdAt && decide (left.1 ≤ right.1)
def byCreation (rows : Table Record) : Table Record := rows.mergeSort older
def legOf (level : Level) (entry : Nat × Record) : Int := (entry.2.settlement?.map level.leg).getD 0

-- UPDATE ... WHERE id waits for the row and then writes it, whatever its status is by then.
def lockRows : List Nat → Request → Request
  | [],next => next
  | key :: rest,next => .lock (fun k _ => k == key) fun _ => lockRows rest next
def advanceRow (data : Advance) (actor : Nat) : Record → Record := onSettlement (data.level.stamp data.now actor)

-- runFifoSettlement. 'system' is no bigint, so the first UPDATE without a requester throws.
def runFifoSettlement (data : Advance) (participant : Nat) : Request :=
  .find (candidate data.level participant) fun rows =>
    let settled := Fifo.fifo (legOf data.level) data.amount (byCreation rows)
    let allocated := Fifo.total (legOf data.level) settled
    let result : AdvanceResult := ⟨settled.map (·.1 / 2),allocated,max (data.amount - allocated) 0⟩
    match data.requesterId with
    | none => if settled.isEmpty then .done (.ok (.advanced result))
      else fail (badRequest "ID qiymatlari raqam ko'rinishida bo'lishi kerak")
    | some actor => lockRows (settled.map (·.1)) <|
        .commit (.advanced data (settled.map fun entry => (entry.1,legOf data.level entry)) result)
          (settled.map fun entry => .update entry.1 (advanceRow data actor)) [] (.done (.ok (.advanced result)))

def advanceSettlement (data : Advance) : Request :=
  match data.matchValue with
  | none => .done (.ok (.advanced ⟨[],0,data.amount⟩))
  | some participant =>
    if data.amount > 0 then runFifoSettlement data participant else .done (.ok (.advanced ⟨[],0,data.amount⟩))

-- rollbackOrderToWaiting over both tables. The guard reads the settlement row before the
-- transaction; the reset inside it looks at nothing but the order id.
def liveRecord (id key : Nat) (record : Record) : Bool := record.order?.any (liveOrder (orderKey id) key)
def findOrder (id : Nat) (next : OrderRow → Request) : Request :=
  .find (liveRecord id) fun rows => match rows.head?.bind (·.2.order?) with
    | some row => next row
    | none => fail (notFound ("Order #" ++ toString id ++ " topilmadi"))
def lockOrder (id : Nat) (originalStatus : OrderStatus) (next : Request) : Request :=
  .lock (fun key record => record.order?.any (storedOrder (orderKey id) key)) fun found => match found.bind (·.2.1.order?) with
    | some row => if row.order.status = originalStatus then next
      else fail (badRequest ("Rollback holati o'zgargan (status: " ++ statusText row.order.status ++ ")"))
    | none => fail (badRequest "Rollback holati o'zgargan (status: yo'q)")
def ordersOf (rows : Table Record) : Table OrderRow := rows.filterMap fun entry => entry.2.order?.map (entry.1,·)
def onOrders : Write OrderRow → Write Record
  | .insert key row => .insert key (.order row)
  | .update key save => .update key (onOrder save)

def rollbackOrderToWaiting (lookups : Lookups) (requester : Requester) (id : Nat) (targetStatus requestId : Option String) :
    Request :=
  match rollbackTarget targetStatus with
  | .error error => fail error
  | .ok target => findOrder id fun row => match checkRollback requester row.order target with
    | .error error => fail error
    | .ok () => .find (fun key record => key == settlementKey id && record.settlement?.any (!·.isDeleted)) fun current =>
      let guarded := current.head?.bind (·.2.settlement?)
      if isSettledToHq guarded then fail (badRequest "Bu buyurtma summasi bosh ofisga to'langan — rollback mumkin emas")
      else match rollbackPlan lookups requester id row.order target requestId with
      | .error error => fail error
      | .ok plan => lockOrder id row.order.status <| lockRows [settlementKey id] <|
        .find (fun key record => record.order?.any (partialChild id key)) fun children =>
          match cascadeItems (mergeItems (Orders.byCreation (ordersOf children)) row.items) row.items with
          | .error error => fail error
          | .ok items => findOrder id fun stored => match updateOrder lookups (some requester.id) plan.update stored.order with
          | .error error => fail error
          | .ok updated =>
            .commit (.rolledBack id guarded)
              ((rollbackWrites lookups.now (orderKey id) (Orders.byCreation (ordersOf children)) row.order items updated).map onOrders ++
                [.update (settlementKey id) (onSettlement resetSettlement)])
              ((plan.events ++ statusEvents id stored.order updated).map (orderKey id,·))
              (.done (.ok (.rolledBack target.message)))

inductive Call where
  | advance (data : Advance)
  | rollback (lookups : Lookups) (requester : Requester) (id : Nat) (targetStatus requestId : Option String)
def Call.request : Call → Request
  | .advance data => advanceSettlement data
  | .rollback lookups requester id targetStatus requestId => rollbackOrderToWaiting lookups requester id targetStatus requestId
abbrev Service := Machine Record OrderEvent Note (Except RpcError Answer)
def serve (table : Table Record) (nextId : Nat) (calls : List Call) (turns : List Turn) : Service :=
  (Machine.start table [] nextId (calls.map Call.request)).run turns

end Elchi.Settlement
