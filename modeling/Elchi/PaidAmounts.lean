import Elchi.OrderEpochs
import Elchi.OrderSolo
namespace Elchi.Orders
open RowLock

-- order.find_all of one market and status: newest first, the page of 1000 cut to 100.
def findAll (table : Table OrderRow) (marketId : Nat) (status : OrderStatus) : Table OrderRow :=
  ((table.select fun _ row => !row.order.isDeleted && row.order.deletedAt.isNone && row.order.marketId == marketId &&
    row.order.status == status).mergeSort fun left right => right.2.order.createdAt ≤ left.2.order.createdAt).take 100

-- Which of the two pages were answered; a failed one counts as empty.
structure PayableReads where
  partly : Bool
  sold : Bool
deriving DecidableEq, Repr

def findMarketPayableOrders (reads : PayableReads) (table : Table OrderRow) (marketId : Nat) : Table OrderRow :=
  (if reads.partly then findAll table marketId .partlyPaid else []) ++ if reads.sold then findAll table marketId .sold else []

-- One order.update_normalized of a payment.
structure PaymentWrite where
  id : Nat
  paidAmount : Int
  status : OrderStatus
deriving DecidableEq, Repr
def PaymentWrite.dto (write : PaymentWrite) : UpdateDto := {paidAmount:=some write.paidAmount,status:=some write.status}

-- The first PARTLY_PAID order takes what it still lacks; the writes and what is left of the payment.
def payPartly (payment : Int) (id : Nat) (order : Order) : PaymentWrite × Int :=
  let remaining := order.toBePaid - order.paidAmount
  if payment ≥ remaining then (⟨id,order.toBePaid,.paid⟩,payment - remaining)
  else (⟨id,order.paidAmount + payment,.partlyPaid⟩,0)
-- SOLD orders in turn; what such an order has paid already is not taken off.
def paySold : Int → Table OrderRow → List PaymentWrite
  | _,[] => []
  | payment,(id,row) :: rest =>
    if payment ≤ 0 then []
    else if payment ≥ row.order.toBePaid then ⟨id,row.order.toBePaid,.paid⟩ :: paySold (payment - row.order.toBePaid) rest
    else ⟨id,row.order.paidAmount + payment,.partlyPaid⟩ :: paySold 0 rest
def firstPartly (orders : Table OrderRow) : Option (Nat × OrderRow) := orders.find? fun entry => entry.2.order.status == .partlyPaid
def soldOrders (orders : Table OrderRow) : Table OrderRow := orders.filter fun entry => entry.2.order.status == .sold
def paymentWrites (orders : Table OrderRow) (amount : Int) : List PaymentWrite :=
  if amount ≤ 0 then []
  else match firstPartly orders with
  | some (id,row) => (payPartly amount id row.order).1 :: paySold (payPartly amount id row.order).2 (soldOrders orders)
  | none => paySold amount (soldOrders orders)

-- Each write is answered before the next; an error ends the payment.
def sendWrites (lookups : Lookups) : List PaymentWrite → OrderStore → OrderStore
  | [],store => store
  | write :: rest,store => match (updateFull lookups none write.id write.dto).perform store with
    | (some (.ok _),next) => sendWrites lookups rest next
    | (_,next) => next
def applyPaymentToOrders (lookups : Lookups) (reads : PayableReads) (marketId : Nat) (amount : Int) (store : OrderStore) : OrderStore :=
  sendWrites lookups (paymentWrites (findMarketPayableOrders reads store.table marketId) amount) store

-- A sale, a partial sale, a cancellation, a rollback, or a payment to a market.
inductive Act where
  | settle (call : Call) (settles : call.settles = true)
  | pay (lookups : Lookups) (reads : PayableReads) (marketId : Nat) (amount : Int)
def Act.perform : Act → OrderStore → OrderStore
  | .settle call _,store => (call.request.perform store).2
  | .pay lookups reads marketId amount,store => applyPaymentToOrders lookups reads marketId amount store
def Act.rolledBack : Act → OrderStore → List Nat
  | .settle (.rollback lookups requester id targetStatus requestId) _,store =>
    match (rollbackOrderToWaiting lookups requester id targetStatus requestId).perform store with
    | (some (.ok _),_) => [id]
    | _ => []
  | _,_ => []

-- The store after the acts so far, with every order that a rollback has answered for.
structure Trail where
  store : OrderStore
  returned : List Nat
def Trail.act (trail : Trail) (act : Act) : Trail := ⟨act.perform trail.store,act.rolledBack trail.store ++ trail.returned⟩
def Trail.run (trail : Trail) (acts : List Act) : Trail := acts.foldl Trail.act trail

def PaidWithin (order : Order) : Prop :=
  0 ≤ order.paidAmount ∧ order.paidAmount ≤ order.toBePaid ∧
    (order.status = .paid ↔ order.paidAmount = order.toBePaid ∧ 0 < order.toBePaid)
def Unpaid (order : Order) : Prop := order.paidAmount = 0 ∧ order.toBePaid = 0
def Kept (returned : List Nat) (id : Nat) (row : OrderRow) : Prop :=
  (isSold row.order.status = true → PaidWithin row.order) ∧ (id ∈ returned → row.order.status = .waiting → Unpaid row.order)
def Trail.Holds (trail : Trail) : Prop := ∀ id row,trail.store.table.row id = some row → Kept trail.returned id row

-- The column that this rollback leaves alone is empty already.
def Clears (requester : Requester) (order : Order) : Prop :=
  if requester.isSuperAdmin && [.paid,.partlyPaid].contains order.status then order.toBePaid = 0 else order.paidAmount = 0
-- The orders a payment goes through, and what it spends on each.
def payableQueue (orders : Table OrderRow) : Table OrderRow := (firstPartly orders).toList ++ soldOrders orders
def outstanding (order : Order) : Int := if order.status = .partlyPaid then order.toBePaid - order.paidAmount else order.toBePaid
def spent (queue : Table OrderRow) : Int := (queue.map fun entry => outstanding entry.2.order).sum
-- A payment reaches only orders with something to be paid.
def ReachesOwing (queue : Table OrderRow) (payment : Int) : Prop := ∀ before entry after,queue = before ++ entry :: after →
  spent before < payment → 0 < entry.2.order.toBePaid
def Act.Apt : Act → OrderStore → Prop
  | .settle (.rollback _ requester id targetStatus _) _,store => rollbackTarget targetStatus = .ok .waiting →
    ∀ row,store.table.row id = some row → checkRollback requester row.order .waiting = .ok () → Clears requester row.order
  | .pay _ reads marketId amount,store => ReachesOwing (payableQueue (findMarketPayableOrders reads store.table marketId)) amount
  | _,_ => True
def Trail.AllApt (trail : Trail) : List Act → Prop
  | [] => True
  | act :: rest => act.Apt trail.store ∧ (trail.act act).AllApt rest

-- A sale sets both columns and the status at once, whatever stood in them.
def Sells (dto : UpdateDto) : Prop := ∃ net paid : Int,0 ≤ paid ∧ paid ≤ net ∧ dto.toBePaid = some net ∧ dto.paidAmount = some paid ∧
  dto.status = some (saleStatus net paid)

theorem paidAfter_bounds (terms : SaleTerms) (asked balance : Int) :
    0 ≤ paidAfter terms.net (min (max asked 0) terms.net) balance ∧ paidAfter terms.net (min (max asked 0) terms.net) balance ≤ terms.net := by
  have nonneg : 0 ≤ terms.net := Int.le_max_right _ _
  unfold paidAfter
  dsimp only
  split
  · omega
  · omega

theorem saleStatus_paid {net paid : Int} (most : paid ≤ net) : saleStatus net paid = .paid ↔ paid = net ∧ 0 < net := by
  unfold saleStatus
  split
  · rename_i whole
    simp only [true_iff]
    omega
  · rename_i short
    have differs : ¬(paid = net ∧ 0 < net) := by omega
    simp only [differs,iff_false]
    split
    · simp
    · simp

theorem sellPlan_sells {id : Nat} (planned : sellPlan lookups requester id order dto requestId = .ok plan) : Sells plan.update := by
  obtain ⟨-,_,parties,_,_,asked,-,-,rfl⟩ := sellPlan_parts planned
  obtain ⟨least,most⟩ := paidAfter_bounds (sellTerms lookups requester order parties dto) asked parties.marketBalance
  exact ⟨_,_,least,most,rfl,rfl,rfl⟩

theorem partlySellPlan_sells {id : Nat} (planned : partlySellPlan lookups requester id row dto requestId token = .ok plan) :
    Sells plan.update := by
  obtain ⟨-,_,parties,_,_,asked,_,-,-,same⟩ := partlySellPlan_parts planned
  obtain ⟨least,most⟩ := paidAfter_bounds (partlySellTerms lookups requester row.order parties dto) asked parties.marketBalance
  rw [same]
  exact ⟨_,_,least,most,rfl,rfl,rfl⟩

theorem sells_kept {id : Nat} {after : OrderRow} (sells : Sells dto) (passed : updateOrder lookups requesterId dto order = .ok updated)
    (status : after.order.status = updated.status) (toBePaid : after.order.toBePaid = updated.toBePaid)
    (paidAmount : after.order.paidAmount = updated.paidAmount) : Kept returned id after := by
  obtain ⟨net,paid,least,most,netGiven,paidGiven,statusGiven⟩ := sells
  obtain ⟨rfl,-⟩ := updateOrder_parts passed
  simp only [updatedOrder_status,updatedOrder_toBePaid,updatedOrder_paidAmount,netGiven,paidGiven,statusGiven,Option.getD_some]
    at status toBePaid paidAmount
  constructor
  · intro _
    rw [PaidWithin,status,toBePaid,paidAmount]
    exact ⟨least,most,saleStatus_paid most⟩
  · intro _ waiting
    have sold := saleStatus_sold net paid
    rw [←status,waiting] at sold
    cases sold

theorem cancelled_kept {id : Nat} {row : OrderRow} (cancelled : row.order.status = .cancelled) : Kept returned id row := by
  constructor
  · intro sold
    rw [cancelled] at sold
    cases sold
  · intro _ waiting
    rw [cancelled] at waiting
    cases waiting

section Requests
variable {store final : OrderStore} {returned : List Nat} {id : Nat}

theorem sellOrder_keeps (keyed : store.table.Keyed) (performed : Performs (sellOrder lookups requester id dto requestId) store final)
    (kept : ∀ id row,store.table.row id = some row → Kept returned id row) :
    ∀ id row,final.table.row id = some row → Kept returned id row := by
  obtain ⟨row,plan,updated,-,planned,passed,table,-⟩ := sellOrder_performs keyed performed
  rw [table]
  apply applyWrites_keeps (by simp) _ kept
  intro key save member stored _
  simp only [List.mem_singleton,Write.update.injEq] at member
  obtain ⟨rfl,rfl⟩ := member
  exact sells_kept (sellPlan_sells planned) passed (saveOrder_status _ _ _) (saveOrder_toBePaid _ _ _) (saveOrder_paidAmount _ _ _)

theorem partlySellOrder_keeps (keyed : store.table.Keyed)
    (performed : Performs (partlySellOrder lookups requester id dto requestId token) store final)
    (kept : ∀ id row,store.table.row id = some row → Kept returned id row) :
    ∀ id row,final.table.row id = some row → Kept returned id row := by
  obtain ⟨row,plan,updated,-,planned,passed,table,-⟩ := partlySellOrder_performs keyed performed
  rw [table]
  apply applyWrites_keeps _ _ kept
  · intro key value member
    simp only [List.mem_cons,reduceCtorEq,List.not_mem_nil,or_false,false_or,Write.insert.injEq] at member
    obtain ⟨rfl,rfl⟩ := member
    obtain ⟨-,-,-,-,_,_,child⟩ := partlySellPlan_goods planned
    exact cancelled_kept (by rw [child,unsoldOrder])
  · intro key save member stored _
    simp only [List.mem_cons,reduceCtorEq,List.not_mem_nil,or_false,Write.update.injEq] at member
    obtain ⟨rfl,rfl⟩ := member
    exact sells_kept (partlySellPlan_sells planned) passed (saveOrder_status _ _ _) (saveOrder_toBePaid _ _ _)
      (saveOrder_paidAmount _ _ _)

theorem cancelOrder_keeps (keyed : store.table.Keyed) (performed : Performs (cancelOrder lookups requester id dto requestId) store final)
    (kept : ∀ id row,store.table.row id = some row → Kept returned id row) :
    ∀ id row,final.table.row id = some row → Kept returned id row := by
  obtain ⟨row,plan,updated,-,planned,passed,table⟩ := cancelOrder_performs keyed performed
  obtain ⟨-,_,_,_,-,-,-,given,-⟩ := cancelPlan_parts planned
  obtain ⟨rfl,-⟩ := updateOrder_parts passed
  rw [table]
  apply applyWrites_keeps (by simp) _ kept
  intro key save member stored _
  simp only [List.mem_singleton,Write.update.injEq] at member
  obtain ⟨rfl,rfl⟩ := member
  exact cancelled_kept (by simp [saveRow,given])

-- The row a rollback leaves: not sold, and unpaid when it waits again.
theorem rollbackRow_clears {after : OrderRow} (planned : rollbackPlan lookups requester id order target requestId = .ok plan)
    (passed : updateOrder lookups (some requester.id) plan.update order = .ok updated)
    (clears : target = .waiting → Clears requester order) (children : Table OrderRow) (items : List OrderItem) (stored : OrderRow)
    (same : after = rollbackRow lookups.now children order items updated stored) :
    isSold after.order.status = false ∧ (after.order.status = .waiting → Unpaid after.order) := by
  subst same
  have back := rollback_status planned passed
  obtain ⟨_,_,-,-,rfl⟩ := rollbackPlan_parts planned
  obtain ⟨rfl,-⟩ := updateOrder_parts passed
  simp only [Unpaid,rollbackRow,saveOrder_status,saveOrder_toBePaid,saveOrder_paidAmount]
  constructor
  · rcases back with waiting | ⟨cancelled,-⟩
    · rw [waiting]
      rfl
    · rw [cancelled]
      rfl
  · intro waiting
    simp only [updatedOrder_status,updatedOrder_toBePaid,updatedOrder_paidAmount,reversal] at waiting ⊢
    cases target with
    | waiting =>
      have empty := clears rfl
      unfold Clears at empty
      unfold rollbackUpdate
      split at empty
      · rename_i privileged
        rw [if_pos privileged]
        exact ⟨rfl,empty⟩
      · rename_i plain
        rw [if_neg plain]
        exact ⟨empty,rfl⟩
    | cancelled => cases waiting
    | cancelledSent => cases waiting

theorem unsold_kept {row : OrderRow} (unsold : isSold row.order.status = false) (unpaid : row.order.status = .waiting → Unpaid row.order) :
    Kept returned id row := by
  refine ⟨?_,fun _ => unpaid⟩
  intro sold
  rw [unsold] at sold
  cases sold

-- A merged child loses its row's life but none of its columns.
theorem deleteChild_keeps {child : Nat × OrderRow} (keyed : store.table.Keyed)
    (kept : ∀ id row,store.table.row id = some row → Kept returned id row)
    (member : child ∈ byCreation (store.table.select (partialChild id))) (now : Nat) (stored : OrderRow) :
    Kept returned child.1 (saveRow now {child.2.order with isDeleted:=true,deletedAt:=some now} stored) := by
  obtain ⟨found,-⟩ := select_row keyed (List.mem_mergeSort.mp member)
  have before := kept child.1 child.2 found
  simpa [Kept,PaidWithin,Unpaid,saveRow] using before

theorem rollback_keeps (keyed : store.table.Keyed)
    (performed : Performs (rollbackOrderToWaiting lookups requester id targetStatus requestId) store final)
    (apt : rollbackTarget targetStatus = .ok .waiting → ∀ row,store.table.row id = some row →
      checkRollback requester row.order .waiting = .ok () → Clears requester row.order)
    (kept : ∀ id row,store.table.row id = some row → Kept returned id row) :
    ∀ key row,final.table.row key = some row → Kept (id :: returned) key row := by
  obtain ⟨loaded,target,plan,updated,items,here,aimed,allowed,-,planned,passed,table,-⟩ := rollback_performs keyed performed
  have clears : target = .waiting → Clears requester loaded.order := by
    rintro rfl
    exact apt aimed loaded here allowed
  have others : ∀ key row,final.table.row key = some row → Kept returned key row := by
    rw [table]
    apply applyWrites_keeps _ _ kept
    · exact fun key value member => absurd member (rollbackWrites_updates _ _ _ _ _ _ key value)
    · intro key save member stored _
      rw [rollbackWrites,List.mem_append,List.mem_map,List.mem_singleton] at member
      rcases member with ⟨child,listed,same⟩ | same
      · cases same
        exact deleteChild_keeps keyed kept listed lookups.now stored
      · cases same
        obtain ⟨unsold,unpaid⟩ := rollbackRow_clears planned passed clears _ _ stored rfl
        exact unsold_kept unsold unpaid
  intro key row stored
  by_cases own : key = id
  · subst own
    rw [table,applyWrites_row,rollbackWrites,written_append,written_update,if_pos rfl,written_nil] at stored
    obtain ⟨merged,-,same⟩ := Option.map_eq_some_iff.mp stored
    obtain ⟨unsold,unpaid⟩ := rollbackRow_clears planned passed clears _ _ merged same.symm
    exact unsold_kept unsold unpaid
  · obtain ⟨within,unpaid⟩ := others key row stored
    refine ⟨within,?_⟩
    intro listed
    rcases List.mem_cons.mp listed with same | older
    · exact absurd same own
    · exact unpaid older

-- A payment's write on the row it was computed from. The status it gives need not be one the
-- order may take: SOLD never becomes PARTLY_PAID.
def Fair (table : Table OrderRow) (write : PaymentWrite) : Prop := ∃ row,table.row write.id = some row ∧
  (isValidStatusTransition row.order.status write.status = true → isSold write.status = true ∧
    PaidWithin {row.order with paidAmount:=write.paidAmount,status:=write.status})

theorem paymentWrite_keeps {write : PaymentWrite} (keyed : store.table.Keyed) (fair : Fair store.table write)
    (performed : Performs (updateFull lookups none write.id write.dto) store final)
    (kept : ∀ id row,store.table.row id = some row → Kept returned id row) :
    (∀ id row,final.table.row id = some row → Kept returned id row) ∧
      ∀ key,key ≠ write.id → final.table.row key = store.table.row key := by
  obtain ⟨row,updated,here,passed,table⟩ := updateFull_performs keyed rfl performed
  obtain ⟨rfl,valid⟩ := updateOrder_parts passed
  obtain ⟨found,stored,fits⟩ := fair
  cases here.symm.trans stored
  obtain ⟨sold,within⟩ := fits (by simpa [PaymentWrite.dto] using valid)
  rw [table]
  constructor
  · apply applyWrites_keeps (by simp) _ kept
    intro key save member old _
    simp only [List.mem_singleton,Write.update.injEq] at member
    obtain ⟨rfl,rfl⟩ := member
    constructor
    · intro _
      simpa [PaidWithin,saveRow,PaymentWrite.dto] using within
    · intro _ waiting
      simp only [saveRow,saveOrder_status,updatedOrder_status,PaymentWrite.dto,Option.getD_some] at waiting
      rw [waiting] at sold
      cases sold
  · intro key other
    rw [applyWrites_row,written_update,if_neg (Ne.symm other),written_nil]

theorem sendWrites_keeps {writes : List PaymentWrite} (keyed : store.table.Keyed) (distinct : (writes.map (·.id)).Nodup)
    (fair : ∀ write ∈ writes,Fair store.table write) (kept : ∀ id row,store.table.row id = some row → Kept returned id row) :
    (sendWrites lookups writes store).table.Keyed ∧
      ∀ id row,(sendWrites lookups writes store).table.row id = some row → Kept returned id row := by
  induction writes generalizing store with
  | nil => exact ⟨keyed,kept⟩
  | cons write rest ih =>
    obtain ⟨fresh,later⟩ := List.nodup_cons.mp distinct
    have still := perform_keyed (updateFull lookups none write.id write.dto) keyed
    have whole := updateFull_atomic lookups none write.id (show write.dto.items = none from rfl) store
    unfold sendWrites
    split
    · rename_i answer next sent
      rw [sent] at still
      obtain ⟨after,elsewhere⟩ := paymentWrite_keeps keyed (fair write List.mem_cons_self) ⟨answer,sent⟩ kept
      apply ih still later _ after
      intro other member
      obtain ⟨row,stored,fits⟩ := fair other (.tail _ member)
      refine ⟨row,?_,fits⟩
      rw [elsewhere other.id,stored]
      intro same
      exact fresh (List.mem_map.mpr ⟨other,member,same⟩)
    · rename_i answer next refused sent
      rw [sent] at still whole
      refine ⟨still,?_⟩
      rcases whole with same | ⟨given,accepted⟩
      · rw [same]
        exact kept
      · exact (refused given accepted).elim

end Requests

section Payments
variable {table : Table OrderRow} {payment : Int}

-- An entry of the queue as the table still has it.
structure Payable (table : Table OrderRow) (status : OrderStatus) (entry : Nat × OrderRow) : Prop where
  stored : table.row entry.1 = some entry.2
  status : entry.2.order.status = status
  within : PaidWithin entry.2.order

theorem paid_fair {entry : Nat × OrderRow} (payable : Payable table status entry) (owing : 0 < entry.2.order.toBePaid) :
    Fair table ⟨entry.1,entry.2.order.toBePaid,.paid⟩ := by
  refine ⟨entry.2,payable.stored,?_⟩
  intro _
  refine ⟨rfl,?_⟩
  simp only [PaidWithin,true_iff,true_and]
  omega

theorem payPartly_fair {entry : Nat × OrderRow} (payable : Payable table .partlyPaid entry) (positive : 0 < payment)
    (owing : 0 < entry.2.order.toBePaid) : Fair table (payPartly payment entry.1 entry.2.order).1 := by
  unfold payPartly
  dsimp only
  split
  · exact paid_fair payable owing
  · rename_i short
    refine ⟨entry.2,payable.stored,?_⟩
    intro _
    refine ⟨rfl,?_⟩
    obtain ⟨least,-,-⟩ := payable.within
    simp only [PaidWithin,reduceCtorEq,false_iff]
    omega

theorem reachesOwing_tail {entry : Nat × OrderRow} {rest : Table OrderRow} (owing : ReachesOwing (entry :: rest) payment) :
    ReachesOwing rest (payment - outstanding entry.2.order) := by
  intro before next after split reached
  apply owing (entry :: before) next after (by rw [split,List.cons_append])
  simp only [spent,List.map_cons,List.sum_cons] at reached ⊢
  omega

theorem paySold_nothing (queue : Table OrderRow) : paySold 0 queue = [] := by
  cases queue with
  | nil => rfl
  | cons entry rest => simp [paySold]

theorem paySold_fair {queue : Table OrderRow} (payable : ∀ entry ∈ queue,Payable table .sold entry) (owing : ReachesOwing queue payment) :
    ∀ write ∈ paySold payment queue,Fair table write := by
  induction queue generalizing payment with
  | nil => simp [paySold]
  | cons entry rest ih =>
    have first := payable entry List.mem_cons_self
    intro write member
    unfold paySold at member
    split at member
    · cases member
    rename_i positive
    have owes := owing [] entry rest rfl (by simpa [spent] using positive)
    split at member
    · rcases List.mem_cons.mp member with rfl | later
      · exact paid_fair first owes
      · apply ih (fun other listed => payable other (.tail _ listed)) _ write later
        have tail := reachesOwing_tail owing
        rwa [outstanding,first.status,if_neg (by simp)] at tail
    · rw [paySold_nothing] at member
      cases List.mem_singleton.mp member
      -- PARTLY_PAID is refused
      refine ⟨entry.2,first.stored,?_⟩
      intro valid
      rw [first.status] at valid
      cases valid

theorem paySold_front (queue : Table OrderRow) (payment : Int) : (paySold payment queue).map (·.id) <+: queue.map (·.1) := by
  induction queue generalizing payment with
  | nil => exact List.prefix_refl _
  | cons entry rest ih =>
    unfold paySold
    split
    · exact List.nil_prefix
    split
    · exact (List.prefix_cons_inj _).mpr (ih _)
    · exact (List.prefix_cons_inj _).mpr (ih _)

theorem findAll_stored {entry : Nat × OrderRow} (keyed : table.Keyed) (member : entry ∈ findAll table marketId status) :
    table.row entry.1 = some entry.2 ∧ entry.2.order.status = status := by
  obtain ⟨stored,chosen⟩ := select_row keyed (List.mem_mergeSort.mp (List.mem_of_mem_take member))
  simp only [Bool.and_eq_true,beq_iff_eq] at chosen
  exact ⟨stored,chosen.2⟩

theorem findAll_distinct (keyed : table.Keyed) (marketId : Nat) (status : OrderStatus) :
    ((findAll table marketId status).map (·.1)).Nodup := by
  have all : ((table.select fun _ row => !row.order.isDeleted && row.order.deletedAt.isNone && row.order.marketId == marketId &&
      row.order.status == status).map (·.1)).Nodup := keyed.sublist (List.filter_sublist.map _)
  have sorted := ((List.mergeSort_perm _ fun left right : Nat × OrderRow =>
    decide (right.2.order.createdAt ≤ left.2.order.createdAt)).map (·.1)).nodup_iff.mpr all
  exact sorted.sublist ((List.take_sublist _ _).map _)

theorem findMarketPayableOrders_stored {entry : Nat × OrderRow} {reads : PayableReads} (keyed : table.Keyed)
    (member : entry ∈ findMarketPayableOrders reads table marketId) :
    table.row entry.1 = some entry.2 ∧ isSold entry.2.order.status = true := by
  rcases List.mem_append.mp member with partly | sold
  · split at partly
    · obtain ⟨stored,status⟩ := findAll_stored keyed partly
      exact ⟨stored,by rw [status]; rfl⟩
    · cases partly
  · split at sold
    · obtain ⟨stored,status⟩ := findAll_stored keyed sold
      exact ⟨stored,by rw [status]; rfl⟩
    · cases sold

theorem findMarketPayableOrders_distinct (keyed : table.Keyed) (reads : PayableReads) (marketId : Nat) :
    ((findMarketPayableOrders reads table marketId).map (·.1)).Nodup := by
  have page : ∀ (answered : Bool) status,((if answered then findAll table marketId status else []).map (·.1)).Nodup := by
    intro answered status
    cases answered with
    | true => exact findAll_distinct keyed marketId status
    | false => exact List.nodup_nil
  have read : ∀ (answered : Bool) status (entry : Nat × OrderRow),entry ∈ (if answered then findAll table marketId status else []) →
      table.row entry.1 = some entry.2 ∧ entry.2.order.status = status := by
    intro answered status entry member
    cases answered with
    | true => exact findAll_stored keyed member
    | false => cases member
  rw [findMarketPayableOrders,List.map_append]
  apply (page _ _).append (page _ _)
  intro key left right
  obtain ⟨partly,inPartly,rfl⟩ := List.mem_map.mp left
  obtain ⟨sold,inSold,same⟩ := List.mem_map.mp right
  obtain ⟨storedPartly,isPartly⟩ := read _ _ partly inPartly
  obtain ⟨storedSold,isSold⟩ := read _ _ sold inSold
  rw [same,storedPartly] at storedSold
  rw [←Option.some.inj storedSold,isPartly] at isSold
  cases isSold

theorem firstPartly_parts {orders : Table OrderRow} {entry : Nat × OrderRow} (first : firstPartly orders = some entry) :
    entry ∈ orders ∧ entry.2.order.status = .partlyPaid := by
  refine ⟨List.mem_of_find?_eq_some first,?_⟩
  simpa using List.find?_some first

theorem soldOrders_parts {orders : Table OrderRow} {entry : Nat × OrderRow} (member : entry ∈ soldOrders orders) :
    entry ∈ orders ∧ entry.2.order.status = .sold := by
  obtain ⟨listed,sold⟩ := List.mem_filter.mp member
  exact ⟨listed,by simpa using sold⟩

theorem payableQueue_distinct {orders : Table OrderRow} (distinct : (orders.map (·.1)).Nodup) :
    ((payableQueue orders).map (·.1)).Nodup := by
  have sold : ((soldOrders orders).map (·.1)).Nodup := distinct.sublist (List.filter_sublist.map _)
  unfold payableQueue
  cases first : firstPartly orders with
  | none => exact sold
  | some entry =>
    obtain ⟨listed,partly⟩ := firstPartly_parts first
    refine List.nodup_cons.mpr ⟨?_,sold⟩
    intro again
    obtain ⟨other,inSold,same⟩ := List.mem_map.mp again
    obtain ⟨alsoListed,isSold⟩ := soldOrders_parts inSold
    have equal := List.inj_on_of_nodup_map distinct alsoListed listed same
    rw [equal,partly] at isSold
    cases isSold

theorem paymentWrites_front (orders : Table OrderRow) (amount : Int) :
    (paymentWrites orders amount).map (·.id) <+: (payableQueue orders).map (·.1) := by
  unfold paymentWrites payableQueue
  split
  · exact List.nil_prefix
  cases firstPartly orders with
  | none => exact paySold_front _ _
  | some entry =>
    have same : (payPartly amount entry.1 entry.2.order).1.id = entry.1 := by
      unfold payPartly
      dsimp only
      split
      · rfl
      · rfl
    simp only [List.map_cons,same,Option.toList_some,List.cons_append,List.nil_append]
    exact (List.prefix_cons_inj _).mpr (paySold_front _ _)

theorem paymentWrites_fair {orders : Table OrderRow} (stored : ∀ entry ∈ orders,table.row entry.1 = some entry.2)
    (within : ∀ entry ∈ orders,PaidWithin entry.2.order) (owing : ReachesOwing (payableQueue orders) payment) :
    ∀ write ∈ paymentWrites orders payment,Fair table write := by
  have sold : ∀ entry ∈ soldOrders orders,Payable table .sold entry := by
    intro entry member
    obtain ⟨listed,status⟩ := soldOrders_parts member
    exact ⟨stored entry listed,status,within entry listed⟩
  unfold payableQueue at owing
  intro write member
  unfold paymentWrites at member
  split at member
  · cases member
  rename_i positive
  cases first : firstPartly orders with
  | none =>
    rw [first] at member owing
    exact paySold_fair sold owing write member
  | some entry =>
    rw [first] at member owing
    obtain ⟨listed,status⟩ := firstPartly_parts first
    have owes := owing [] entry _ rfl (by simpa [spent] using positive)
    rcases List.mem_cons.mp member with rfl | later
    · exact payPartly_fair ⟨stored entry listed,status,within entry listed⟩ (by omega) owes
    · have tail := reachesOwing_tail owing
      rw [outstanding,status,if_pos rfl] at tail
      unfold payPartly at later
      dsimp only at later
      split at later
      · exact paySold_fair sold tail write later
      · rw [paySold_nothing] at later
        cases later

end Payments

section Acts
variable {store : OrderStore} {returned : List Nat}

theorem applyPayment_keeps {reads : PayableReads} (keyed : store.table.Keyed)
    (owing : ReachesOwing (payableQueue (findMarketPayableOrders reads store.table marketId)) amount)
    (kept : ∀ id row,store.table.row id = some row → Kept returned id row) :
    (applyPaymentToOrders lookups reads marketId amount store).table.Keyed ∧
      ∀ id row,(applyPaymentToOrders lookups reads marketId amount store).table.row id = some row → Kept returned id row := by
  apply sendWrites_keeps keyed _ _ kept
  · have queue := payableQueue_distinct (findMarketPayableOrders_distinct keyed reads marketId)
    exact queue.sublist (paymentWrites_front _ amount).sublist
  · apply paymentWrites_fair _ _ owing
    · intro entry member
      exact (findMarketPayableOrders_stored keyed member).1
    · intro entry member
      obtain ⟨stored,sold⟩ := findMarketPayableOrders_stored keyed member
      exact (kept entry.1 entry.2 stored).1 sold

theorem settle_keeps {call : Call} (settles : call.settles = true)
    (each : ∀ final,Performs call.request store final → ∀ id row,final.table.row id = some row → Kept returned id row)
    (kept : ∀ id row,store.table.row id = some row → Kept returned id row) :
    ∀ id row,(call.request.perform store).2.table.row id = some row → Kept returned id row := by
  rcases settles_atomic settles store with same | ⟨answer,accepted⟩
  · rw [same]
    exact kept
  · exact each _ ⟨answer,Prod.ext accepted rfl⟩

theorem act_holds {trail : Trail} (keyed : trail.store.table.Keyed) (holds : trail.Holds) (act : Act) (apt : act.Apt trail.store) :
    (trail.act act).store.table.Keyed ∧ (trail.act act).Holds := by
  cases act with
  | pay lookups reads marketId amount => exact applyPayment_keeps keyed apt holds
  | settle call settles =>
    refine ⟨perform_keyed call.request keyed,?_⟩
    cases call with
    | sell lookups requester id dto requestId =>
      exact settle_keeps settles (fun _ performed => sellOrder_keeps keyed performed holds) holds
    | partlySell lookups requester id dto requestId token =>
      exact settle_keeps settles (fun _ performed => partlySellOrder_keeps keyed performed holds) holds
    | cancel lookups requester id dto requestId =>
      exact settle_keeps settles (fun _ performed => cancelOrder_keeps keyed performed holds) holds
    | rollback lookups requester id target requestId =>
      unfold Trail.Holds Trail.act Act.rolledBack Act.perform Call.request
      dsimp only
      split
      · rename_i answer final accepted
        rw [accepted]
        exact rollback_keeps keyed ⟨answer,accepted⟩ apt holds
      · rename_i outcome refused
        apply settle_keeps settles _ holds
        intro after performed
        obtain ⟨given,same⟩ := performed
        exact (refused given after same).elim
    | _ => cases settles

theorem paid_amounts_kept {trail : Trail} {acts : List Act} (keyed : trail.store.table.Keyed) (opening : trail.Holds)
    (apt : trail.AllApt acts) : (trail.run acts).Holds := by
  induction acts generalizing trail with
  | nil => exact opening
  | cons act rest ih =>
    obtain ⟨first,later⟩ := apt
    obtain ⟨stillKeyed,holds⟩ := act_holds keyed opening act first
    exact ih stillKeyed holds later

end Acts

def sampleTrail : Trail := ⟨⟨sampleTable,[],12⟩,[]⟩
theorem sample_holds : sampleTrail.Holds := by
  intro id row stored
  have member : (id,row) ∈ sampleTable := (row_exact (by decide)).mpr stored
  cases List.mem_singleton.mp member
  exact unsold_kept rfl fun _ => ⟨rfl,rfl⟩

-- The courier sells, takes it back and sells again; the market is then paid in full.
def soldAgain : List Act :=
  [.settle (.sell (sampleLookups 3000000 1000) sampleCourier 11 {} (some "a")) rfl,
   .settle (.rollback (sampleLookups 3000000 2000) sampleCourier 11 none (some "b")) rfl,
   .settle (.sell (sampleLookups 3000000 3000) sampleCourier 11 {} (some "c")) rfl,
   .pay (sampleLookups 3000000 4000) ⟨true,true⟩ 1 7000000]

theorem reachesOwing_all {queue : Table OrderRow} (all : (queue.all fun entry => decide (0 < entry.2.order.toBePaid)) = true)
    (payment : Int) : ReachesOwing queue payment := by
  intro before entry after split _
  simpa using List.all_eq_true.mp all entry (by simp [split])

theorem soldAgain_apt : sampleTrail.AllApt soldAgain := by
  refine ⟨trivial,?_,trivial,?_,trivial⟩
  · intro _ row stored _
    have paid : ((sampleTrail.run (soldAgain.take 1)).store.table.row 11).map (·.order.paidAmount) = some 0 := by decide
    have same : (sampleTrail.run (soldAgain.take 1)).store.table.row 11 = some row := stored
    rw [same] at paid
    exact Option.some.inj paid
  · apply reachesOwing_all
    decide +kernel

theorem paid_amounts_kept_sold_again : (sampleTrail.run soldAgain).Holds ∧
    ((sampleTrail.run soldAgain).store.table.row 11).map (fun row => (row.order.status,row.order.paidAmount,row.order.toBePaid)) =
      some (.paid,7000000,7000000) :=
  ⟨paid_amounts_kept (by decide) sample_holds soldAgain_apt,by decide +kernel⟩

-- The market is in debt, so the sale counts as paid; the superadmin takes it back.
def paidThenReturned : List Act :=
  [.settle (.sell {sampleLookups 3000000 1000 with cashboxes:=fun _ _ => some (-10000000)} sampleCourier 11 {} (some "a")) rfl,
   .settle (.rollback (sampleLookups 3000000 2000) ⟨1,[.superadmin],none⟩ 11 none (some "b")) rfl]

theorem returned_still_owed : ¬∀ (trail : Trail) (acts : List Act),trail.store.table.Keyed → trail.Holds → (trail.run acts).Holds := by
  intro always
  have holds := always sampleTrail paidThenReturned (by decide) sample_holds
  have left : ((sampleTrail.run paidThenReturned).store.table.row 11).map (fun row => (row.order.status,row.order.toBePaid)) =
      some (.waiting,7000000) := by decide +kernel
  obtain ⟨row,stored,same⟩ := Option.map_eq_some_iff.mp left
  have returned : 11 ∈ (sampleTrail.run paidThenReturned).returned := by decide +kernel
  obtain ⟨waiting,owed⟩ := Prod.mk.inj same
  obtain ⟨-,empty⟩ := (holds 11 row stored).2 returned waiting
  rw [owed] at empty
  cases empty

end Elchi.Orders
