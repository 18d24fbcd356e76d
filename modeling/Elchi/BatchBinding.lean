import Elchi.DepotRows
namespace Elchi.Batches
open Orders RowLock

def isOpen : BatchStatus → Bool
  | .pending => true
  | .sent => true
  | .received => false
  | .cancelled => false

-- An order is bound three times: by its own column, by an item, and in the batch's count and
-- total. What the three say of each other.
structure Binding (depot : Depot) : Prop where
  listed : ∀ id batch,depot.batches.row id = some batch → isOpen batch.status = true →
    ∀ orderId,orderId ∈ (depot.liveItems id).map (·.orderId) ↔
      ∃ row,depot.orders.row orderId = some row ∧ live row.order = true ∧ row.order.currentBatchId = some id
  counted : ∀ id batch,depot.batches.row id = some batch → isOpen batch.status = true →
    batch.orderCount = (depot.liveItems id).length ∧ batch.totalPrice = snapshotTotal (depot.liveItems id)
  once : ∀ orderId,(depot.items.filter fun item => item.orderId == orderId && !item.isDeleted &&
    (depot.batches.row item.batchId).any fun batch => isOpen batch.status).length ≤ 1
  pointed : ∀ orderId row id,depot.orders.row orderId = some row → row.order.currentBatchId = some id →
    ∃ batch,depot.batches.row id = some batch ∧ isOpen batch.status = true

def Depot.pointer (depot : Depot) (orderId : Nat) : Option Nat := (depot.orders.row orderId).bind fun row => row.order.currentBatchId
def Depot.alive (depot : Depot) (orderId : Nat) : Bool := (depot.orders.row orderId).any fun row => live row.order
def itemKey (item : BatchItem) : Nat × Nat := (item.batchId,item.orderId)
def openAt (depot : Depot) (id : Nat) : Prop := ∃ batch,depot.batches.row id = some batch ∧ isOpen batch.status = true

-- The same over all rows, with what the operations need of the tables.
structure Bound (depot : Depot) : Prop where
  keyed : depot.orders.Keyed
  batchKeyed : depot.batches.Keyed
  below : ∀ id,depot.batches.row id ≠ none → id < depot.nextBatchId
  unique : (depot.items.map itemKey).Nodup
  itemsBelow : ∀ item ∈ depot.items,item.batchId < depot.nextBatchId
  kept : ∀ id batch,depot.batches.row id = some batch → batch.isDeleted = false
  listed : ∀ id,openAt depot id → ∀ orderId,orderId ∈ (depot.liveItems id).map (·.orderId) ↔ depot.pointer orderId = some id
  counted : ∀ id batch,depot.batches.row id = some batch → isOpen batch.status = true →
    batch.orderCount = (depot.liveItems id).length ∧ batch.totalPrice = snapshotTotal (depot.liveItems id)
  pointed : ∀ orderId id,depot.pointer orderId = some id → depot.alive orderId = true ∧ openAt depot id

theorem pointer_some {depot : Depot} : depot.pointer orderId = some batchId ↔
    ∃ row,depot.orders.row orderId = some row ∧ row.order.currentBatchId = some batchId := by
  simp only [Depot.pointer,Option.bind_eq_some_iff]
theorem alive_some {depot : Depot} : depot.alive orderId = true ↔ ∃ row,depot.orders.row orderId = some row ∧ live row.order = true := by
  simp only [Depot.alive,Option.any_eq_true]
theorem live_kept {order : Order} (alive : live order = true) : order.isDeleted = false := by
  simp only [live,Bool.and_eq_true,Bool.not_eq_true'] at alive
  exact alive.1
theorem mem_liveItems {depot : Depot} : item ∈ depot.liveItems batchId ↔
    item ∈ depot.items ∧ item.batchId = batchId ∧ item.isDeleted = false := by
  simp [Depot.liveItems,liveIn]

theorem bound_binding {depot : Depot} (bound : Bound depot) : Binding depot := by
  refine ⟨?_,bound.counted,?_,?_⟩
  · intro id batch stored isOpen orderId
    rw [bound.listed id ⟨batch,stored,isOpen⟩ orderId]
    constructor
    · intro points
      obtain ⟨row,here,current⟩ := pointer_some.mp points
      obtain ⟨row',here',alive⟩ := alive_some.mp (bound.pointed orderId id points).1
      cases here.symm.trans here'
      exact ⟨row,here,alive,current⟩
    · rintro ⟨row,here,-,current⟩
      exact pointer_some.mpr ⟨row,here,current⟩
  · intro orderId
    -- two such items would name two batches the order points at
    by_contra more
    let chosen := depot.items.filter fun item => item.orderId == orderId && !item.isDeleted &&
      (depot.batches.row item.batchId).any fun batch => isOpen batch.status
    have distinct : (chosen.map itemKey).Nodup := List.Nodup.sublist (List.Sublist.map _ List.filter_sublist) bound.unique
    have points : ∀ item ∈ chosen,item.orderId = orderId ∧ depot.pointer orderId = some item.batchId := by
      intro item listed
      obtain ⟨present,condition⟩ := List.mem_filter.mp listed
      simp only [Bool.and_eq_true,beq_iff_eq,Bool.not_eq_true',Option.any_eq_true] at condition
      obtain ⟨⟨same,notDeleted⟩,batch,stored,isOpen⟩ := condition
      refine ⟨same,(bound.listed item.batchId ⟨batch,stored,isOpen⟩ orderId).mp ?_⟩
      exact List.mem_map.mpr ⟨item,mem_liveItems.mpr ⟨present,rfl,notDeleted⟩,same⟩
    have many : 1 < chosen.length := Nat.lt_of_not_le more
    cases shape : chosen with
    | nil => simp [shape] at many
    | cons first rest => cases rest with
      | nil => simp [shape] at many
      | cons second rest =>
        have one := points first (by simp [shape])
        have other := points second (by simp [shape])
        have same : itemKey first = itemKey second := by
          simp only [itemKey,one.1,other.1]
          rw [Option.some.inj (one.2.symm.trans other.2)]
        simp [shape,same] at distinct
  · intro orderId row id here current
    exact (bound.pointed orderId id (pointer_some.mpr ⟨row,here,current⟩)).2

@[simp] theorem withStatus_pointer (status : OrderStatus) (order : Order) : (withStatus status order).currentBatchId = order.currentBatchId := rfl
@[simp] theorem withStatus_live (status : OrderStatus) (order : Order) : live (withStatus status order) = live order := rfl
@[simp] theorem atBranch_live (now requesterId branchId : Nat) (order : Order) : live (atBranch now requesterId branchId order) = live order := rfl
@[simp] theorem atBranch_pointer (now requesterId branchId : Nat) (order : Order) :
    (atBranch now requesterId branchId order).currentBatchId = none := rfl
@[simp] theorem detached_live (requeue : Bool) (order : Order) : live (detached requeue order) = live order := rfl
@[simp] theorem detached_pointer (requeue : Bool) (order : Order) : (detached requeue order).currentBatchId = none := rfl
@[simp] theorem unbind_live (order : Order) : live (unbind order) = live order := rfl
@[simp] theorem unbind_pointer (order : Order) : (unbind order).currentBatchId = none := rfl
@[simp] theorem bindTo_live (batchId : Nat) (order : Order) : live (bindTo batchId order) = live order := rfl
@[simp] theorem receivedOrder_live (now requesterId branchId : Nat) (order : Order) :
    live (receivedOrder now requesterId branchId order) = live order := rfl
@[simp] theorem receivedOrder_pointer (now requesterId branchId : Nat) (order : Order) :
    (receivedOrder now requesterId branchId order).currentBatchId = none := rfl
@[simp] theorem receivedOrder_deleted (now requesterId branchId : Nat) (order : Order) :
    (receivedOrder now requesterId branchId order).isDeleted = order.isDeleted := rfl

-- What an update does to the pointer and the marks of a row.
section Columns
variable {now : Nat} {condition : Order → Bool} {set : Order → Order} {row : OrderRow}

theorem setColumns_live (keeps : ∀ order,live (set order) = live order) :
    live (setColumns now condition set row).order = live row.order := by
  unfold setColumns
  split
  · exact keeps row.order
  · rfl
theorem setColumns_deleted (keeps : ∀ order,(set order).isDeleted = order.isDeleted) :
    (setColumns now condition set row).order.isDeleted = row.order.isDeleted := by
  unfold setColumns
  split
  · exact keeps row.order
  · rfl
theorem setColumns_pointer (keeps : ∀ order,(set order).currentBatchId = order.currentBatchId) :
    (setColumns now condition set row).order.currentBatchId = row.order.currentBatchId := by
  unfold setColumns
  split
  · exact keeps row.order
  · rfl
theorem setColumns_released (releases : ∀ order,(set order).currentBatchId = none) (present : row.order.isDeleted = false) :
    (setColumns now condition set row).order.currentBatchId = if condition row.order then none else row.order.currentBatchId := by
  unfold setColumns
  cases chosen : condition row.order with
  | true => simp [present,releases]
  | false => simp
theorem setColumns_unbound (releases : ∀ order,(set order).currentBatchId = none) (idle : row.order.currentBatchId = none) :
    (setColumns now condition set row).order.currentBatchId = none := by
  unfold setColumns
  split
  · exact releases row.order
  · exact idle
end Columns

-- An update that lets go of the orders of closed batches, row by row.
theorem pointer_released {depot : Depot} {orderId : Nat} (bound : Bound depot) (f : OrderRow → OrderRow)
    (closed : Nat → Prop) [DecidablePred closed]
    (idle : ∀ row : OrderRow,row.order.currentBatchId = none → (f row).order.currentBatchId = none)
    (names : ∀ row batchId,row.order.isDeleted = false → depot.pointer orderId = some batchId → row.order.currentBatchId = some batchId →
      (f row).order.currentBatchId = if closed batchId then none else some batchId) :
    (((depot.orders.row orderId).map f).bind fun row => row.order.currentBatchId) =
      (depot.pointer orderId).filter fun batchId => !decide (closed batchId) := by
  cases here : depot.orders.row orderId with
  | none => simp [Depot.pointer,here]
  | some row =>
    rw [Option.map_some,Option.bind_some]
    cases points : row.order.currentBatchId with
    | none =>
      have nowhere : depot.pointer orderId = none := by simp [Depot.pointer,here,points]
      rw [nowhere,idle row points,Option.filter_none]
    | some batchId =>
      have pointed : depot.pointer orderId = some batchId := pointer_some.mpr ⟨row,here,points⟩
      obtain ⟨row',here',alive⟩ := alive_some.mp (bound.pointed orderId batchId pointed).1
      cases here.symm.trans here'
      rw [pointed,names row batchId (live_kept alive) pointed points]
      by_cases gone : closed batchId
      · simp [Option.filter,gone]
      · simp [Option.filter,gone]
theorem alive_kept {depot : Depot} {orderId : Nat} {f : OrderRow → OrderRow} (keeps : ∀ row,live (f row).order = live row.order) :
    (((depot.orders.row orderId).map f).any fun row => live row.order) = depot.alive orderId := by
  rw [Depot.alive]
  cases depot.orders.row orderId with
  | none => rfl
  | some row => exact keeps row

-- Closing batches: their orders are let go, and nothing else moves.
theorem bound_close {depot next : Depot} (closed : Nat → Prop) [DecidablePred closed] (bound : Bound depot)
    (keyed : next.orders.Keyed) (batchKeyed : next.batches.Keyed) (sameNext : next.nextBatchId = depot.nextBatchId)
    (others : ∀ id,¬closed id → next.batches.row id = depot.batches.row id)
    (closes : ∀ id,closed id → depot.batches.row id ≠ none ∧ ∀ batch,next.batches.row id = some batch → isOpen batch.status = false ∧ batch.isDeleted = false)
    (itemKeys : next.items.map itemKey = depot.items.map itemKey) (items : ∀ id,¬closed id → next.liveItems id = depot.liveItems id)
    (pointers : ∀ orderId,next.pointer orderId = (depot.pointer orderId).filter fun id => !decide (closed id))
    (alive : ∀ orderId,next.alive orderId = depot.alive orderId) : Bound next := by
  have stays : ∀ id,openAt next id → ¬closed id ∧ openAt depot id := by
    rintro id ⟨batch,stored,isOpen⟩
    have notClosed : ¬closed id := by
      intro gone
      rw [((closes id gone).2 batch stored).1] at isOpen
      cases isOpen
    exact ⟨notClosed,batch,others id notClosed ▸ stored,isOpen⟩
  have points : ∀ orderId id,¬closed id → (next.pointer orderId = some id ↔ depot.pointer orderId = some id) := by
    intro orderId id notClosed
    rw [pointers]
    cases depot.pointer orderId with
    | none => simp
    | some held =>
      by_cases gone : closed held
      · simp only [Option.filter,gone,decide_true,Bool.not_true,Bool.false_eq_true,if_false,reduceCtorEq,Option.some.injEq,false_iff]
        rintro rfl
        exact notClosed gone
      · simp [Option.filter,gone]
  refine ⟨keyed,batchKeyed,?_,itemKeys ▸ bound.unique,?_,?_,?_,?_,?_⟩
  · intro id present
    rw [sameNext]
    apply bound.below
    by_cases gone : closed id
    · exact (closes id gone).1
    · exact others id gone ▸ present
  · intro item member
    have listed : itemKey item ∈ depot.items.map itemKey := itemKeys ▸ List.mem_map.mpr ⟨item,member,rfl⟩
    obtain ⟨old,present,same⟩ := List.mem_map.mp listed
    have here : old.batchId = item.batchId := congrArg Prod.fst same
    rw [sameNext,←here]
    exact bound.itemsBelow old present
  · intro id batch stored
    by_cases gone : closed id
    · exact ((closes id gone).2 batch stored).2
    · exact bound.kept id batch (others id gone ▸ stored)
  · intro id isOpen orderId
    obtain ⟨notClosed,before⟩ := stays id isOpen
    rw [items id notClosed,points orderId id notClosed]
    exact bound.listed id before orderId
  · intro id batch stored isOpen
    have notClosed := (stays id ⟨batch,stored,isOpen⟩).1
    rw [items id notClosed]
    exact bound.counted id batch (others id notClosed ▸ stored) isOpen
  · intro orderId id pointed
    have notClosed : ¬closed id := by
      intro gone
      rw [pointers] at pointed
      have kept := (Option.filter_eq_some_iff.mp pointed).2
      simp [gone] at kept
    obtain ⟨present,batch,stored,isOpen⟩ := bound.pointed orderId id ((points orderId id notClosed).mp pointed)
    exact ⟨(alive orderId).trans present,batch,(others id notClosed).trans stored,isOpen⟩

end Elchi.Batches
