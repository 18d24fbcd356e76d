import Elchi.DepotStock
namespace Elchi.Batches
open Orders RowLock

-- An order with the events written of it.
structure Thread where
  order : Option Standing
  tracking : List TrackingEvent
  custody : List CustodyEvent
def Depot.thread (depot : Depot) (id : Nat) : Thread :=
  ⟨(depot.orders.row id).map (standing ·.order),slice depot.tracking id,slice depot.custody id⟩

def between (before after : Holder) : CustodyEvent := ⟨some before.holderType,before.holderBranchId,before.holderCourierId,after⟩
-- An event for a status that changed, and one for a holder that changed.
def stepped (before after : Standing) : List TrackingEvent :=
  if before.status = after.status then [] else [⟨some before.status,after.status⟩]
def passed (before after : Standing) : List CustodyEvent :=
  if before.holder = after.holder then [] else [between before.holder after.holder]

-- The orders a send marks that are not on the road yet, in the order of their events.
def departing (ids : List Nat) (depot : Depot) : List Nat :=
  ids.filter fun id => (depot.orders.row id).any fun row => live row.order && row.order.status != .onTheRoad
-- A forward send that passes its checks.
structure Dispatches (depot : Depot) (batchId : Nat) (input : SendInput) (batch : Batch) (toMark : List BatchItem) : Prop where
  checked : checkSendInput input = .ok ()
  stored : depot.batches.row batchId = some batch
  opened : isOpen batch.status = true
  forward : batch.direction = .forward
  marked : itemsToMark (depot.liveItems batchId) input.orderIds.eraseDups = .ok toMark
-- A send that stops has moved the orders still bound to its batch, and told of the first few that depart.
def Moves (depot : Depot) (op : Op) (stop id : Nat) : Prop :=
  match op with
  | .send now batchId random input => ∃ batch toMark n,Dispatches depot batchId input batch toMark ∧
      toldBy now batchId random batch toMark depot stop = some n ∧
      id ∈ departing (toMark.map (·.orderId)) depot ∧ depot.pointer id = some batchId
  | _ => False
def Tells (depot : Depot) (op : Op) (stop id : Nat) : Prop :=
  match op with
  | .send now batchId random input => ∃ batch toMark n,Dispatches depot batchId input batch toMark ∧
      toldBy now batchId random batch toMark depot stop = some n ∧ id ∈ (departing (toMark.map (·.orderId)) depot).take n
  | _ => False

-- A receipt that takes an order to a branch.
def Arrives (depot : Depot) (op : Op) (id branchId : Nat) : Prop :=
  match op with
  | .receive _ batchId _ => ∃ batch,depot.batches.row batchId = some batch ∧ batch.status = .sent ∧
      id ∈ (depot.liveItems batchId).map (·.orderId) ∧ branchId = batch.destinationBranchId
  | .receiveOrders _ batchId orderIds _ => ∃ batch selectedItems,depot.batches.row batchId = some batch ∧ batch.status = .sent ∧
      scannedItems (depot.liveItems batchId) orderIds.eraseDups = .ok selectedItems ∧
      id ∈ selectedItems.map (·.orderId) ∧ branchId = batch.destinationBranchId
  | _ => False
-- Forward orders go back to NEW when a receipt leaves them out or their batch is cancelled.
def Requeues (depot : Depot) (op : Op) (id : Nat) : Prop :=
  match op with
  | .receiveOrders _ batchId orderIds _ => ∃ batch selectedItems,depot.batches.row batchId = some batch ∧ batch.status = .sent ∧
      scannedItems (depot.liveItems batchId) orderIds.eraseDups = .ok selectedItems ∧ batch.direction = .forward ∧
      id ∈ (depot.liveItems batchId).map (·.orderId) ∧ id ∉ selectedItems.map (·.orderId)
  | .cancelBatch _ batchId reason => ∃ batch,depot.batches.row batchId = some batch ∧ isOpen batch.status = true ∧
      checkReason reason = .ok () ∧ batch.direction = .forward ∧ depot.pointer id = some batchId
  | _ => False

-- An operation that computes the holder, with the branch and the courier it computes it from.
def Resolves (depot : Depot) (op : Op) (lookups : Lookups) (branchId courierId : Option Nat) : Prop :=
  match op with
  | .create known userBranch dto requester _ => lookups = known ∧ courierId = dto.courierId ∧
      ∃ resolved,resolveBranchIdForOrder known userBranch dto.branchId requester = .ok resolved ∧ branchId = some resolved
  | .updateFull known requesterId id dto => lookups = known ∧ dto.recalculatesHolder = true ∧
      ∃ row updated,depot.orders.row id = some row ∧ live row.order = true ∧ editOrder known requesterId id dto row = .ok updated ∧
        branchId = dto.branchId.getD row.order.branchId ∧ courierId = dto.courierId.getD row.order.courierId
  | .partlySellOrder known requester id dto requestId token => lookups = known ∧
      ∃ row plan,depot.orders.row id = some row ∧ live row.order = true ∧
        partlySellPlan known requester id row dto requestId token = .ok plan ∧
        branchId = plan.child.branchId ∧ courierId = plan.child.courierId
  | _ => False
def Op.rollsBack : Op → Bool
  | .rollback _ _ _ _ _ => true
  | _ => false
def Op.Provides (op : Op) (id : Nat) (action : ProviderAction) : Prop :=
  match op with
  | .markByProvider _ key done => key = id ∧ done = action
  | _ => False

def Standing.arrived (order : Standing) (status : OrderStatus) (branchId : Nat) : Standing :=
  {order with status:=status,branchId:=some branchId,holder:=⟨.branch,some branchId,none⟩}
-- How an order changes when each part that changes gets its event.
inductive Change (depot : Depot) (op : Op) (id : Nat) : Standing → Standing → Prop where
  | edited {before after : Standing} (valid : isValidStatusTransition before.status after.status = true)
      (kept : after.isDeleted = before.isDeleted)
      (holder : (after.branchId = before.branchId ∧ after.courierId = before.courierId ∧ after.holder = before.holder) ∨
        ∃ lookups,Resolves depot op lookups after.branchId after.courierId ∧
          after.holder = resolveHolderFromState lookups after.branchId after.courierId) : Change depot op id before after
  | removed {before : Standing} (time : Nat) (rolls : op.rollsBack = true) :
      Change depot op id before {before with isDeleted:=true,deletedAt:=some time}
  | provided {before : Standing} (action : ProviderAction) (provides : op.Provides id action)
      (fresh : action.alreadyApplied before.status = false) (kept : before.isDeleted = false) :
      Change depot op id before {before with status:=action.target}
  | received {before : Standing} (branchId : Nat) (status : OrderStatus) (arrives : Arrives depot op id branchId)
      (kept : before.isDeleted = false) (there : status = .received ∨ status = .new) :
      Change depot op id before (before.arrived status branchId)
  | requeued {before : Standing} (requeues : Requeues depot op id) (kept : before.isDeleted = false) :
      Change depot op id before {before with status:=.new}

-- What an operation that stops anywhere does to an order and its events.
inductive Passage (depot : Depot) (op : Op) (stop id : Nat) : Thread → Thread → Prop where
  | kept (thread : Thread) : Passage depot op stop id thread thread
  | created (order : Standing) (lookups : Lookups) (resolves : Resolves depot op lookups order.branchId order.courierId)
      (holder : order.holder = resolveHolderFromState lookups order.branchId order.courierId) (kept : order.isDeleted = false) :
      Passage depot op stop id ⟨none,[],[]⟩
        ⟨some order,[⟨none,mapInitialStatusForTracking order.status⟩],[⟨none,none,none,order.holder⟩]⟩
  | changed {before after : Standing} {tracking : List TrackingEvent} {custody : List CustodyEvent}
      (change : Change depot op id before after) :
      Passage depot op stop id ⟨some before,tracking,custody⟩
        ⟨some after,tracking ++ stepped before after,custody ++ passed before after⟩
  -- The goods are back with the market.
  | closed {before : Standing} {tracking : List TrackingEvent} {custody : List CustodyEvent} (status : OrderStatus)
      (differs : before.status ≠ .returnedToMarket) :
      Passage depot op stop id ⟨some before,tracking,custody⟩
        ⟨some {before with status:=status,holder:=⟨.market,none,none⟩},tracking ++ [⟨some before.status,status⟩],
          custody ++ [between before.holder ⟨.market,none,none⟩]⟩
  -- A send moves and tells separately.
  | sent {before : Standing} {tracking : List TrackingEvent} {custody : List CustodyEvent} (moved told : Bool)
      (moves : moved = true ↔ Moves depot op stop id) (tells : told = true ↔ Tells depot op stop id) :
      Passage depot op stop id ⟨some before,tracking,custody⟩
        ⟨some (if moved then {before with status:=.onTheRoad} else before),
          tracking ++ (if told then [⟨some before.status,.onTheRoad⟩] else []),custody⟩
  -- A scanned order that is deleted.
  | unknown {before : Standing} {tracking : List TrackingEvent} {custody : List CustodyEvent} (holder : Holder)
      (gone : before.isDeleted = true) :
      Passage depot op stop id ⟨some before,tracking,custody⟩ ⟨some before,tracking,custody ++ [unknownHanded holder]⟩

section Threads
variable {depot : Depot}

theorem thread_absent {id : Nat} (stocked : Stocked depot) (absent : depot.orders.row id = none) : depot.thread id = ⟨none,[],[]⟩ := by
  have untold : slice depot.tracking id = [] := slice_absent fun entry member same => stocked.told entry member (same ▸ absent)
  have unlogged : slice depot.custody id = [] := slice_absent fun entry member same => stocked.logged entry member (same ▸ absent)
  rw [Depot.thread,absent,untold,unlogged]
  rfl
theorem thread_some {id : Nat} (here : depot.orders.row id = some row) :
    depot.thread id = ⟨some (standing row.order),slice depot.tracking id,slice depot.custody id⟩ := by
  rw [Depot.thread,here]
  rfl

-- A save of one order with its events.
theorem record_thread {id : Nat} (before after : Order) {orders : Table OrderRow} (other : Nat)
    (own : (orders.row id).map (standing ·.order) = some (standing after)) :
    (depot.record id before after orders).thread other =
      if other = id then ⟨some (standing after),slice depot.tracking id ++ stepped (standing before) (standing after),
        slice depot.custody id ++ passed (standing before) (standing after)⟩
      else ⟨(orders.row other).map (standing ·.order),slice depot.tracking other,slice depot.custody other⟩ := by
  unfold Depot.thread Depot.record
  dsimp only
  rw [slice_append,slice_append,slice_own,slice_own]
  by_cases same : other = id
  · subst same
    rw [if_pos rfl,if_pos rfl,if_pos rfl,own]
    rfl
  · rw [if_neg same,if_neg (Ne.symm same),if_neg (Ne.symm same),List.append_nil,List.append_nil]
theorem insertOrder_thread (stocked : Stocked depot) (row : OrderRow) (other : Nat) :
    (depot.insertOrder row).thread other = if other = depot.nextOrderId then
        ⟨some (standing row.order),[⟨none,mapInitialStatusForTracking row.order.status⟩],[⟨none,none,none,holderOf row.order⟩]⟩
      else depot.thread other := by
  have absent : depot.orders.row depot.nextOrderId = none := by
    by_contra present
    exact absurd (stocked.fresh _ present) (Nat.lt_irrefl _)
  have before := thread_absent stocked absent
  simp only [Depot.thread,Thread.mk.injEq] at before
  unfold Depot.thread Depot.insertOrder
  dsimp only
  rw [slice_append,slice_append,slice_cons,slice_cons,row_put]
  by_cases same : other = depot.nextOrderId
  · subst same
    simp [before.2.1,before.2.2]
  · simp [same,Ne.symm same]

-- New line items leave the order as it stands; a save replaces it.
theorem itemWrites_standing (id : Nat) (edits : List (List OrderItem → List OrderItem)) (orders : Table OrderRow) (other : Nat) :
    (Table.row (applyWrites orders (itemWrites id edits)) other).map (standing ·.order) = (orders.row other).map (standing ·.order) := by
  induction edits generalizing orders with
  | nil => rfl
  | cons edit rest ih =>
    have later := ih ((Write.update id fun stored => {stored with items:=edit stored.items}).apply orders)
    change (Table.row (applyWrites ((Write.update id _).apply orders) (itemWrites id rest)) other).map _ = _
    rw [later,update_row]
    split
    · rw [Option.map_map]
      rfl
    · rfl
theorem saved_thread {id : Nat} (here : depot.orders.row id = some row) {after : Order} {save : OrderRow → OrderRow}
    (saves : ∀ stored,standing (save stored).order = standing after) (edits : List (List OrderItem → List OrderItem)) (other : Nat) :
    (depot.record id row.order after (applyWrites depot.orders (itemWrites id edits ++ [.update id save]))).thread other =
      if other = id then ⟨some (standing after),slice depot.tracking id ++ stepped (standing row.order) (standing after),
        slice depot.custody id ++ passed (standing row.order) (standing after)⟩
      else depot.thread other := by
  have rows : ∀ key,Table.row (applyWrites depot.orders (itemWrites id edits ++ [.update id save])) key =
      if id = key then (Table.row (applyWrites depot.orders (itemWrites id edits)) key).map save
      else Table.row (applyWrites depot.orders (itemWrites id edits)) key := by
    intro key
    rw [applyWrites,List.foldl_append]
    exact update_row id save _ key
  rw [record_thread]
  · split
    · rfl
    · rename_i different
      rw [rows,if_neg (Ne.symm different),itemWrites_standing]
      rfl
  · have items := itemWrites_standing id edits depot.orders id
    rw [here] at items
    obtain ⟨stored,there,-⟩ := Option.map_eq_some_iff.mp items
    rw [rows,if_pos rfl,there,Option.map_some,Option.map_some,saves]
end Threads

section Single
variable {depot next : Depot} {op : Op} {stop : Nat}

theorem saved_passage {id : Nat} (here : depot.orders.row id = some row) {after : Order} {save : OrderRow → OrderRow}
    (saves : ∀ stored,standing (save stored).order = standing after) (edits : List (List OrderItem → List OrderItem))
    (change : Change depot op id (standing row.order) (standing after)) (other : Nat) :
    Passage depot op stop other (depot.thread other)
      ((depot.record id row.order after (applyWrites depot.orders (itemWrites id edits ++ [.update id save]))).thread other) := by
  rw [saved_thread here saves edits other]
  split
  · rename_i same
    subst same
    rw [thread_some here]
    exact .changed change
  · exact .kept _

-- An update that names neither branch nor courier leaves the holder alone.
theorem quiet_change {id : Nat} (passed : updateOrder lookups requesterId dto order = .ok updated) (quiet : dto.recalculatesHolder = false) :
    Change depot op id (standing order) (standing updated) := by
  obtain ⟨valid,kept,-,branch,courier,holder⟩ := updateOrder_keeps passed
  rw [quiet] at holder
  simp only [UpdateDto.recalculatesHolder,Bool.or_eq_false_iff,Option.isSome_eq_false_iff,Option.isNone_iff_eq_none] at quiet
  rw [quiet.1] at branch
  rw [quiet.2] at courier
  exact .edited valid kept (.inl ⟨branch,courier,holder⟩)

theorem create_passage (stocked : Stocked depot) (created : create lookups userBranch dto requester token depot = .ok next) (id : Nat) :
    Passage depot (.create lookups userBranch dto requester token) stop id (depot.thread id) (next.thread id) := by
  obtain ⟨branchId,resolved,rfl⟩ := create_parts created
  rw [insertOrder_thread stocked]
  split
  · rename_i same
    subst same
    rw [thread_absent stocked]
    · exact .created (standing (createdOrder lookups dto requester branchId token)) lookups ⟨rfl,rfl,branchId,resolved,rfl⟩ rfl rfl
    · by_contra present
      exact absurd (stocked.fresh _ present) (Nat.lt_irrefl _)
  · exact .kept _

theorem updateFull_passage {id : Nat} (done : updateFull lookups requesterId id dto depot = .ok commits) (other : Nat) :
    Passage depot (.updateFull lookups requesterId id dto) stop other (depot.thread other) ((applyAll (commits.take stop) depot).thread other) := by
  obtain ⟨row,updated,here,alive,edited,edits,states⟩ := updateFull_until done stop
  rcases states with same | same
  · have items := itemWrites_standing id edits depot.orders other
    rw [same]
    unfold Depot.thread
    dsimp only
    rw [items]
    exact .kept _
  · rw [same]
    obtain ⟨valid,kept,-,branch,courier,holder⟩ := updateOrder_keeps (editOrder_parts edited)
    have entity : standing (updateEntity dto updated) = standing updated := rfl
    refine saved_passage here (fun stored => standing_saveRow _ (updateEntity dto updated) stored) edits ?_ other
    rw [entity]
    cases resolves : dto.recalculatesHolder with
    | false => exact quiet_change (editOrder_parts edited) resolves
    | true =>
      rw [resolves,if_pos rfl] at holder
      exact .edited valid kept (.inr ⟨lookups,⟨rfl,resolves,row,updated,here,alive,edited,branch,courier⟩,holder⟩)

theorem sellOrder_passage {id : Nat} (done : sellOrder lookups requester id dto requestId depot = .ok next) (other : Nat) :
    Passage depot op stop other (depot.thread other) (next.thread other) := by
  obtain ⟨row,plan,updated,here,-,planned,passed,rfl⟩ := sellOrder_parts done
  have quiet : plan.update.recalculatesHolder = false := by
    obtain ⟨-,_,_,_,_,_,-,-,rfl⟩ := sellPlan_parts planned
    rfl
  exact saved_passage here (fun stored => standing_soldRow _ updated _ stored) [] (quiet_change passed quiet) other
theorem cancelOrder_passage {id : Nat} (done : cancelOrder lookups requester id dto requestId depot = .ok next) (other : Nat) :
    Passage depot op stop other (depot.thread other) (next.thread other) := by
  obtain ⟨row,plan,updated,here,-,planned,passed,rfl⟩ := cancelOrder_parts done
  obtain ⟨-,_,_,_,-,-,-,-,quiet⟩ := cancelPlan_parts planned
  exact saved_passage here (fun stored => standing_saveRow _ updated stored) [] (quiet_change passed quiet) other

theorem partlySell_passage {id : Nat} (stocked : Stocked depot)
    (done : partlySellOrder lookups requester id dto requestId token depot = .ok next) (other : Nat) :
    Passage depot (.partlySellOrder lookups requester id dto requestId token) stop other (depot.thread other) (next.thread other) := by
  obtain ⟨row,plan,updated,here,alive,planned,passed,rfl⟩ := partlySellOrder_parts done
  have quiet : plan.update.recalculatesHolder = false := by
    obtain ⟨-,_,_,_,_,_,_,-,-,same⟩ := partlySellPlan_parts planned
    rw [same]
    rfl
  obtain ⟨-,childAlive,holder⟩ := partlySellPlan_child planned
  have sold : Stocked (depot.record id row.order updated (applyWrites depot.orders
      [.update id (partlySoldRow lookups.now updated plan)])) := stocked_record (stocked_saved stocked
    (fun stored => standing_partlySoldRow lookups.now updated plan stored) (updateOrder_unmarked passed alive) id) (saved_present here _)
  rw [insertOrder_thread sold]
  split
  · rename_i same
    have absent : depot.orders.row other = none := by
      by_contra present
      exact absurd (stocked.fresh _ present) (same ▸ Nat.lt_irrefl _)
    rw [thread_absent stocked absent]
    exact .created (standing plan.child) lookups ⟨rfl,row,plan,here,alive,planned,rfl,rfl⟩ holder (live_kept childAlive)
  · exact saved_passage here (fun stored => standing_partlySoldRow _ updated plan stored) [] (quiet_change passed quiet) other

-- The rows of the partial children are marked deleted, each as it was read.
theorem children_standing (stocked : Stocked depot) (now id key : Nat) (child : OrderRow)
    (here : Table.row (applyWrites depot.orders ((byCreation (depot.orders.select (partialChild id))).map (deleteChild now))) key = some child) :
    ∃ row,depot.orders.row key = some row ∧ (standing child.order = standing row.order ∨
      standing child.order = {standing row.order with isDeleted:=true,deletedAt:=some now}) := by
  revert child here
  revert key
  apply applyWrites_keeps (P:=fun key (child : OrderRow) => ∃ row,depot.orders.row key = some row ∧ (standing child.order = standing row.order ∨
      standing child.order = {standing row.order with isDeleted:=true,deletedAt:=some now}))
  · intro key value member
    obtain ⟨_,-,impossible⟩ := List.mem_map.mp member
    cases impossible
  · intro key save member child _
    obtain ⟨entry,listed,same⟩ := List.mem_map.mp member
    cases same
    have stored := (select_row stocked.keyed (List.mem_mergeSort.mp listed)).1
    exact ⟨entry.2,stored,.inr (standing_saveRow now {entry.2.order with isDeleted:=true,deletedAt:=some now} child)⟩
  · exact fun key row here => ⟨row,here,.inl rfl⟩
theorem rollback_passage {id : Nat} (stocked : Stocked depot)
    (done : rollbackOrderToWaiting lookups requester id targetStatus requestId depot = .ok next) (other : Nat) :
    Passage depot (.rollback lookups requester id targetStatus requestId) stop other (depot.thread other) (next.thread other) := by
  obtain ⟨row,target,plan,items,updated,here,-,planned,passed,rfl⟩ := rollback_parts done
  have quiet : plan.update.recalculatesHolder = false := by
    obtain ⟨_,_,-,-,rfl⟩ := rollbackPlan_parts planned
    simp only [reversal,rollbackUpdate]
    split
    · split
      · rfl
      · rfl
    · rfl
  generalize merged : applyWrites depot.orders ((byCreation (depot.orders.select (partialChild id))).map (deleteChild lookups.now)) = removed
  have rows : ∀ key,Table.row (applyWrites depot.orders (rollbackWrites lookups.now id (byCreation (depot.orders.select (partialChild id)))
      row.order items updated)) key =
      if id = key then (Table.row removed key).map
        (rollbackRow lookups.now (byCreation (depot.orders.select (partialChild id))) row.order items updated)
      else Table.row removed key := by
    intro key
    rw [rollbackWrites,applyWrites,List.foldl_append,←merged]
    exact update_row id _ _ key
  have present : ∀ key,depot.orders.row key ≠ none → ∃ child,Table.row removed key = some child := by
    intro key stored
    rw [←merged,applyWrites_row]
    exact Option.ne_none_iff_exists'.mp (written_present _ stored)
  rw [record_thread]
  · split
    · rename_i same
      subst same
      rw [thread_some here]
      exact .changed (quiet_change passed quiet)
    · rename_i different
      rw [rows,if_neg (Ne.symm different)]
      cases there : Table.row removed other with
      | none =>
        have absent : depot.orders.row other = none := by
          by_contra stored
          obtain ⟨child,here⟩ := present other stored
          rw [there] at here
          cases here
        unfold Depot.thread
        rw [absent]
        exact .kept _
      | some child =>
        rw [←merged] at there
        obtain ⟨stored,before,same | gone⟩ := children_standing stocked lookups.now id other child there
        · rw [thread_some before,Option.map_some,same]
          exact .kept _
        · rw [thread_some before,Option.map_some,gone]
          have change : Change depot (.rollback lookups requester id targetStatus requestId) other (standing stored.order)
            {standing stored.order with isDeleted:=true,deletedAt:=some lookups.now} := .removed lookups.now rfl
          have passage : Passage depot (.rollback lookups requester id targetStatus requestId) stop other
              ⟨some (standing stored.order),slice depot.tracking other,slice depot.custody other⟩ _ := .changed change
          simpa [stepped,Batches.passed] using passage
  · obtain ⟨child,there⟩ := present id (by simp [here])
    rw [rows,if_pos rfl,there,Option.map_some,Option.map_some,standing_rollbackRow]

theorem target_differs {action : ProviderAction} (fresh : action.alreadyApplied status = false) : status ≠ action.target := by
  rintro rfl
  cases action with
  | sell => cases fresh
  | cancel => cases fresh
  | handBack => cases fresh
theorem markByProvider_passage {id : Nat} (done : markByProvider now id action depot = .ok next) (other : Nat) :
    Passage depot (.markByProvider now id action) stop other (depot.thread other) (next.thread other) := by
  obtain ⟨row,here,alive,rfl | ⟨fresh,rfl⟩⟩ := markByProvider_parts done
  · exact .kept _
  · -- the status differs, so that the event is the one of a change
    have same : Depot.track {depot with orders:=applyWrites depot.orders [.update id (saveRow now (providerOrder now action row.order))]}
        (id,⟨some row.order.status,action.target⟩) =
          depot.record id row.order (providerOrder now action row.order)
            (applyWrites depot.orders [.update id (saveRow now (providerOrder now action row.order))]) := by
      have changes : statusChange row.order (providerOrder now action row.order) = [⟨some row.order.status,action.target⟩] :=
        if_neg (target_differs fresh)
      have stays : handed (holderOf (providerOrder now action row.order)) row.order = [] := if_pos rfl
      rw [Depot.record,changes,stays]
      simp [Depot.track]
    have change : Change depot (.markByProvider now id action) id (standing row.order) (standing (providerOrder now action row.order)) :=
      .provided action ⟨rfl,rfl⟩ fresh (live_kept alive)
    rw [same]
    exact saved_passage here (fun stored => standing_saveRow now (providerOrder now action row.order) stored) [] change other

theorem closeCustody_thread {id : Nat} (before : Order) (status : OrderStatus) {save : OrderRow → OrderRow}
    (here : depot.orders.row id = some row) (saves : standing (save row).order = after) (other : Nat) :
    (closeCustody id before status {depot with orders:=(Write.update id save).apply depot.orders}).thread other =
      if other = id then ⟨some after,slice depot.tracking id ++ [⟨some before.status,status⟩],
        slice depot.custody id ++ [between (holderOf before) ⟨.market,none,none⟩]⟩
      else depot.thread other := by
  unfold Depot.thread closeCustody
  dsimp only
  rw [slice_append,slice_append,slice_cons,slice_cons,update_row]
  by_cases same : other = id
  · subst same
    rw [if_pos rfl,if_pos rfl,if_pos rfl,if_pos rfl,here,Option.map_some,Option.map_some,saves]
    rfl
  · rw [if_neg same,if_neg (Ne.symm same),if_neg (Ne.symm same),if_neg (Ne.symm same)]
    simp
theorem markReturned_passage {id : Nat} (done : markReturnedToMarket lookups id depot = .ok next) (other : Nat) :
    Passage depot op stop other (depot.thread other) (next.thread other) := by
  obtain ⟨row,here,-,differs,rfl⟩ := markReturned_parts done
  rw [closeCustody_thread row.order .returnedToMarket here (standing_saveRow lookups.now (returnedOrder row.order) row)]
  split
  · rename_i same
    subst same
    rw [thread_some here]
    have closes : (standing row.order).status ≠ .returnedToMarket := differs
    exact .closed .returnedToMarket closes
  · exact .kept _

-- Each order handed over is closed, the others are left alone.
theorem handOver_thread {orders : Table OrderRow} (keyed : orders.Keyed) (depot : Depot)
    (each : ∀ entry ∈ orders,depot.orders.row entry.1 = some entry.2) (id : Nat) :
    (handOver now requesterId orders depot).thread id = match orders.row id with
      | some row => ⟨some {standing row.order with status:=.closed,holder:=⟨.market,none,none⟩},
          slice depot.tracking id ++ [⟨some row.order.status,.closed⟩],
          slice depot.custody id ++ [between (holderOf row.order) ⟨.market,none,none⟩]⟩
      | none => depot.thread id := by
  induction orders generalizing depot with
  | nil => rfl
  | cons entry rest ih =>
    obtain ⟨absent,tail⟩ := List.nodup_cons.mp keyed
    have here := each entry List.mem_cons_self
    have first := closeCustody_thread entry.2.order .closed here
      (standing_saveRow now (handedOverOrder now requesterId entry.2.order) entry.2)
    rw [handOver,ih tail]
    · rw [row_cons]
      by_cases same : entry.1 = id
      · have gone : Table.row rest id = none := row_none.mpr (same ▸ absent)
        rw [if_pos same,gone]
        dsimp only
        rw [first,if_pos same.symm,same]
        rfl
      · have kept := first id
        rw [if_neg (Ne.symm same)] at kept
        rw [if_neg same]
        split
        · have told := congrArg Thread.tracking kept
          have handed := congrArg Thread.custody kept
          dsimp only [Depot.thread] at told handed
          rw [told,handed]
        · exact kept
    · intro other member
      have different : entry.1 ≠ other.1 := fun same => absent (List.mem_map.mpr ⟨other,member,same.symm⟩)
      have there := each other (.tail _ member)
      dsimp only [closeCustody]
      rw [update_row,if_neg different,there]
theorem handover_passage (stocked : Stocked depot)
    (done : completeMarketCancelledHandover now requesterId marketId orderIds authorization depot = .ok next) (id : Nat) :
    Passage depot op stop id (depot.thread id) (next.thread id) := by
  rw [completeHandover_parts done,handOver_thread (select_keyed stocked.keyed _)]
  · split
    · rename_i row found
      have listed := (row_exact (select_keyed stocked.keyed _)).mpr found
      obtain ⟨here,chosen⟩ := select_row stocked.keyed listed
      simp only [handoverReady,Bool.and_eq_true,beq_iff_eq] at chosen
      rw [thread_some here]
      refine .closed .closed ?_
      rw [show (standing row.order).status = .cancelled from chosen.2.1.1.1.2]
      intro same
      cases same
    · exact .kept _
  · exact fun entry member => (select_row stocked.keyed member).1

end Single

section Bulk
variable {depot next : Depot} {op : Op} {stop : Nat}

theorem contains_row {V : Type} (table : Table V) (id : Nat) : (table.map (·.1)).contains id = (table.row id).isSome := by
  cases found : table.row id with
  | none => simpa using row_none.mp found
  | some value =>
    have listed : id ∈ table.map (·.1) := by
      by_contra absent
      rw [row_none.mpr absent] at found
      cases found
    simpa using listed
theorem slice_tracked {orders : Table OrderRow} (keyed : orders.Keyed) (status : OrderStatus) (id : Nat) :
    slice (tracked status orders) id =
      ((orders.row id).map fun row => stepped (standing row.order) {standing row.order with status:=status}).getD [] := by
  rw [←slice_rows keyed (fun row => stepped (standing row.order) {standing row.order with status:=status}) id,tracked,
    List.filterMap_eq_flatMap_toList]
  congr 2
  funext entry
  unfold stepped
  split
  · rename_i same
    rw [if_pos (show (standing entry.2.order).status = status from same)]
    rfl
  · rename_i different
    rw [if_neg (show ¬(standing entry.2.order).status = status from different)]
    rfl

-- A raw update of a row that is not deleted, and one that is.
theorem setColumns_standing (now : Nat) (condition : Order → Bool) (set : Order → Order) {row : OrderRow} (kept : row.order.isDeleted = false) :
    standing (setColumns now condition set row).order = if condition row.order then standing (set row.order) else standing row.order := by
  unfold setColumns
  rw [kept]
  cases condition row.order with
  | false => rfl
  | true => rfl
theorem setColumns_gone (now : Nat) (condition : Order → Bool) (set : Order → Order) {row : OrderRow} (gone : row.order.isDeleted = true) :
    setColumns now condition set row = row := by
  simp [setColumns,gone]
theorem alive_or_gone {id : Nat} (stocked : Stocked depot) (here : depot.orders.row id = some row) :
    live row.order = true ∨ row.order.isDeleted = true := by
  cases gone : row.order.isDeleted with
  | true => exact .inr rfl
  | false =>
    refine .inl (live_standing.mpr ⟨gone,?_⟩)
    cases time : row.order.deletedAt with
    | none => exact time
    | some _ =>
      have marked := stocked.marked id row here (by rw [time]; rfl)
      rw [gone] at marked
      cases marked

-- Updates of a column that no standing has.
theorem setColumns_keeps (now : Nat) (condition : Order → Bool) (set : Order → Order) (keeps : ∀ order,standing (set order) = standing order)
    (row : OrderRow) : standing (setColumns now condition set row).order = standing row.order := by
  unfold setColumns
  split
  · exact keeps row.order
  · rfl
theorem updateWhere_standing (now : Nat) (condition : Nat → Order → Bool) (set : Order → Order)
    (keeps : ∀ order,standing (set order) = standing order) (orders : Table OrderRow) (id : Nat) :
    (Table.row (updateWhere now condition set orders) id).map (standing ·.order) = (orders.row id).map (standing ·.order) := by
  rw [updateWhere_row,Option.map_map]
  congr 1
  funext row
  exact setColumns_keeps now (condition id) set keeps row
theorem assignOrders_thread (assigned : assignOrders now batchId orders depot = .ok next) (id : Nat) : next.thread id = depot.thread id := by
  obtain ⟨-,-,rfl⟩ := assignOrders_parts assigned
  unfold Depot.thread
  dsimp only
  rw [updateWhere_standing now _ (bindTo batchId) fun _ => rfl]
theorem assignGroups_thread {place : Nat → Table OrderRow → Depot → Except RpcError (Nat × Depot)} {groups : List (Nat × Table OrderRow)}
    (places : ∀ group orders current placed,place group orders current = .ok placed →
      placed.2 = current ∨ ∃ batch,placed.2 = current.insertBatch batch)
    (assigned : assignGroups now place groups depot = .ok next) (id : Nat) : next.thread id = depot.thread id := by
  refine assignGroups_keeps (P:=fun current => current.thread id = depot.thread id) groups ?_ rfl assigned
  intro group orders current placed after _ held found assigns
  rw [assignOrders_thread assigns]
  rcases places group orders current placed found with same | ⟨batch,same⟩
  · rw [same,held]
  · rw [same]
    exact held
theorem createTransfer_thread (created : createBranchTransferBatches now input depot = .ok next) (id : Nat) :
    next.thread id = depot.thread id := by
  rcases createTransfer_parts created with rfl | ⟨key,pending,orders,-,-,-,assigned⟩
  · rfl
  · refine assignGroups_thread ?_ assigned id
    intro group orders current placed found
    rcases placeInRegion_parts found with ⟨_,-,same⟩ | fresh
    · exact .inl same
    · exact .inr ⟨_,congrArg Prod.snd fresh⟩
theorem createReturn_thread (created : createBranchReturnBatches now input depot = .ok next) (id : Nat) :
    next.thread id = depot.thread id := by
  rcases createReturn_parts created with rfl | ⟨key,orders,-,-,assigned⟩
  · rfl
  · refine assignGroups_thread ?_ assigned id
    intro group orders current placed found
    rcases placeReturn_parts found with ⟨_,-,same⟩ | ⟨_,fresh⟩
    · exact .inl same
    · exact .inr ⟨_,congrArg Prod.snd fresh⟩
theorem rebatch_thread (done : rebatch now batchId batch remaining depot = .ok next) (id : Nat) : next.thread id = depot.thread id := by
  unfold rebatch at done
  dsimp only at done
  split at done
  · cases done
    rfl
  split at done
  · exact createReturn_thread done id
  · exact createTransfer_thread done id
theorem bulkAssign_thread (done : bulkAssignBatch now batchId orderIds messageId depot = .ok next) (id : Nat) :
    next.thread id = depot.thread id := by
  rcases bulkAssign_parts done with rfl | ⟨message,-,-,-,-,rfl⟩
  · rfl
  · unfold Depot.thread
    dsimp only
    rw [updateWhere_standing now _ (bindTo batchId) fun _ => rfl]
theorem bulkRemove_thread (done : bulkRemoveFromBatch now batchId messageId depot = .ok next) (id : Nat) :
    next.thread id = depot.thread id := by
  rcases bulkRemove_parts done with rfl | ⟨message,-,-,rfl⟩
  · rfl
  · unfold Depot.thread
    dsimp only
    rw [updateWhere_standing now _ unbind fun _ => rfl]
theorem cancelBatches_thread (done : cancelBranchTransferBatches now batchIds remove depot = .ok next) (id : Nat) :
    next.thread id = depot.thread id := by
  obtain ⟨-,rfl⟩ := cancelBatches_parts done
  cases remove with
  | false => rfl
  | true =>
    unfold Depot.thread
    dsimp only
    rw [if_pos rfl,updateWhere_standing now _ unbind fun _ => rfl]

theorem ordersIn_row (stocked : Stocked depot) (ids : List Nat) (id : Nat) :
    (depot.ordersIn ids).row id = (depot.orders.row id).filter fun row => ids.contains id && live row.order :=
  row_select stocked.keyed _ id
theorem ordersIn_keyed (stocked : Stocked depot) (ids : List Nat) : (depot.ordersIn ids).Keyed := select_keyed stocked.keyed _

-- What the rows of a receipt write of one order, from the row its reading picked.
theorem receiveBatch_thread (stocked : Stocked depot) (now requesterId batchId : Nat) (batch : Batch) (id : Nat) (picked : Option OrderRow)
    (chosen : (depot.ordersIn ((depot.liveItems batchId).map (·.orderId))).row id = picked) :
    (receiveBatch now requesterId batchId batch depot).thread id =
      ⟨(depot.orders.row id).map fun row => standing
          (setColumns now (fun _ => (picked.filter fun row => !(row.order.regionId == some batch.targetRegionId)).isSome) (withStatus .new)
            (setColumns now (fun _ => (picked.filter fun row => row.order.regionId == some batch.targetRegionId).isSome) (withStatus .received)
              (setColumns now (fun _ => ((depot.liveItems batchId).map (·.orderId)).contains id)
                (atBranch now requesterId batch.destinationBranchId) row))).order,
        slice depot.tracking id ++
          (((picked.filter fun row => row.order.regionId == some batch.targetRegionId).map fun row =>
              stepped (standing row.order) {standing row.order with status:=.received}).getD [] ++
            ((picked.filter fun row => !(row.order.regionId == some batch.targetRegionId)).map fun row =>
              stepped (standing row.order) {standing row.order with status:=.new}).getD []),
        slice depot.custody id ++
          (picked.map fun row => handed ⟨.branch,some batch.destinationBranchId,none⟩ row.order).getD []⟩ := by
  have keyed := ordersIn_keyed stocked ((depot.liveItems batchId).map (·.orderId))
  let isLocal := fun (_ : Nat) (row : OrderRow) => row.order.regionId == some batch.targetRegionId
  have localRow := row_select keyed isLocal id
  have transitRow := row_select keyed (fun key row => !isLocal key row) id
  have received := slice_tracked (select_keyed keyed isLocal) .received id
  have requeued := slice_tracked (select_keyed keyed fun key row => !isLocal key row) .new id
  have custody := slice_rows keyed (fun row : OrderRow => handed ⟨.branch,some batch.destinationBranchId,none⟩ row.order) id
  rw [localRow,chosen] at received
  rw [transitRow,chosen] at requeued
  rw [chosen] at localRow transitRow custody
  have localIn := contains_row ((depot.ordersIn ((depot.liveItems batchId).map (·.orderId))).select isLocal) id
  have transitIn := contains_row ((depot.ordersIn ((depot.liveItems batchId).map (·.orderId))).select fun key row => !isLocal key row) id
  rw [localRow] at localIn
  rw [transitRow] at transitIn
  unfold Depot.thread
  dsimp only [receiveBatch]
  rw [updateWhere_row,updateWhere_row,updateWhere_row,Option.map_map,Option.map_map,Option.map_map,slice_append,slice_append,slice_append,
    custody]
  dsimp only [Table.select,isLocal] at received requeued localIn transitIn
  rw [received,requeued]
  simp only [Function.comp_def,localIn,transitIn]
-- A row that no reading picked keeps its standing.
theorem setColumns_unchosen (now : Nat) (set : Order → Order) {chosen : Bool} {row : OrderRow}
    (unchosen : chosen = false ∨ row.order.isDeleted = true) : setColumns now (fun _ => chosen) set row = row := by
  rcases unchosen with rfl | gone
  · simp [setColumns]
  · exact setColumns_gone now _ set gone
theorem unpicked (stocked : Stocked depot) {id : Nat} (here : depot.orders.row id = some row) {ids : List Nat}
    (unchosen : (ids.contains id && live row.order) = false) : ids.contains id = false ∨ row.order.isDeleted = true := by
  rcases Bool.and_eq_false_iff.mp unchosen with unlisted | dead
  · exact .inl unlisted
  · rcases alive_or_gone stocked here with alive | gone
    · rw [dead] at alive
      cases alive
    · exact .inr gone
theorem receiveBatch_passage (stocked : Stocked depot) (stored : depot.batches.row batchId = some batch) (sent : batch.status = .sent)
    (now : Nat) (requesterId : Option Nat) (id : Nat) : Passage depot (.receive now batchId requesterId) stop id (depot.thread id)
      ((receiveBatch now (requesterId.getD 0) batchId batch depot).thread id) := by
  have chosen := ordersIn_row stocked ((depot.liveItems batchId).map (·.orderId)) id
  cases here : depot.orders.row id with
  | none =>
    rw [here,Option.filter_none] at chosen
    rw [receiveBatch_thread stocked now _ batchId batch id none chosen,Depot.thread,here]
    simpa using Passage.kept _
  | some row =>
    rw [here] at chosen
    cases picks : ((depot.liveItems batchId).map (·.orderId)).contains id && live row.order with
    | false =>
      rw [Option.filter_some_neg (by exact picks)] at chosen
      rw [receiveBatch_thread stocked now _ batchId batch id none chosen,thread_some here,here,Option.map_some]
      simp only [Option.filter_none,Option.isSome_none,setColumns_unchosen now _ (.inl rfl),
        setColumns_unchosen now _ (unpicked stocked here picks)]
      simpa using Passage.kept _
    | true =>
      obtain ⟨listed,alive⟩ := Bool.and_eq_true_iff.mp picks
      have kept := live_kept alive
      rw [Option.filter_some_pos (by exact picks)] at chosen
      rw [receiveBatch_thread stocked now _ batchId batch id (some row) chosen,thread_some here,here,Option.map_some]
      have arrives : Arrives depot (.receive now batchId requesterId) id batch.destinationBranchId :=
        ⟨batch,stored,sent,by simpa using listed,rfl⟩
      cases near : row.order.regionId == some batch.targetRegionId with
      | true =>
        have after : standing (setColumns now (fun _ => false) (withStatus .new) (setColumns now (fun _ => true) (withStatus .received)
            (setColumns now (fun _ => true) (atBranch now (requesterId.getD 0) batch.destinationBranchId) row))).order =
              (standing row.order).arrived .received batch.destinationBranchId := by
          simp [setColumns,kept,withStatus,atBranch,standing,holderOf,Standing.arrived]
        simp only [Option.filter_some,near,Bool.not_true,if_true,Bool.false_eq_true,if_false,Option.isSome_some,Option.isSome_none,listed,after,
          Option.map_some,Option.map_none,Option.getD_some,Option.getD_none,List.append_nil]
        exact .changed (.received batch.destinationBranchId .received arrives kept (.inl rfl))
      | false =>
        have after : standing (setColumns now (fun _ => true) (withStatus .new) (setColumns now (fun _ => false) (withStatus .received)
            (setColumns now (fun _ => true) (atBranch now (requesterId.getD 0) batch.destinationBranchId) row))).order =
              (standing row.order).arrived .new batch.destinationBranchId := by
          simp [setColumns,kept,withStatus,atBranch,standing,holderOf,Standing.arrived]
        simp only [Option.filter_some,near,Bool.not_false,if_true,Bool.false_eq_true,if_false,Option.isSome_some,Option.isSome_none,listed,after,
          Option.map_some,Option.map_none,Option.getD_some,Option.getD_none,List.nil_append]
        exact .changed (.received batch.destinationBranchId .new arrives kept (.inr rfl))

-- The same for the orders scanned and for those left in the batch.
theorem receiveSelected_thread {selectedItems : List BatchItem} (stocked : Stocked depot) (distinct : (selectedItems.map (·.orderId)).Nodup)
    (now requesterId batchId : Nat) (batch : Batch) (id : Nat) {remaining : List Nat} (picked left : Option OrderRow)
    (remains : remaining = ((depot.liveItems batchId).filter fun item =>
      !(selectedItems.map (·.orderId)).contains item.orderId).map (·.orderId))
    (chosen : (depot.ordersIn (selectedItems.map (·.orderId))).row id = picked)
    (others : Table.row (if batch.direction = .forward then depot.ordersIn remaining else []) id = left) :
    (receiveSelected now requesterId batchId batch selectedItems depot).thread id =
      ⟨(depot.orders.row id).map fun row => standing (setColumns now (fun _ => remaining.contains id) (detached (batch.direction == .forward))
          (setColumns now (fun _ => (selectedItems.map (·.orderId)).contains id) (receivedOrder now requesterId batch.destinationBranchId) row)).order,
        slice depot.tracking id ++
          ((picked.map fun row => stepped (standing row.order) {standing row.order with status:=.received}).getD [] ++
            (left.map fun row => stepped (standing row.order) {standing row.order with status:=.new}).getD []),
        slice depot.custody id ++ if id ∈ selectedItems.map (·.orderId) then
            (picked.map fun row => handed ⟨.branch,some batch.destinationBranchId,none⟩ row.order).getD
              [unknownHanded ⟨.branch,some batch.destinationBranchId,none⟩]
          else []⟩ := by
  have within : ∀ key,Table.row ((selectedItems.map (·.orderId)).filterMap fun k =>
      (depot.ordersIn (selectedItems.map (·.orderId))).find? fun entry => entry.1 == k) key =
        (depot.ordersIn (selectedItems.map (·.orderId))).row key := by
    intro key
    rw [row_pick]
    split
    · rfl
    · rename_i unlisted
      rw [ordersIn_row stocked]
      cases depot.orders.row key with
      | none => rfl
      | some row => simp [Option.filter_some,unlisted]
  have pickedKeyed : Table.Keyed ((selectedItems.map (·.orderId)).filterMap fun k =>
      (depot.ordersIn (selectedItems.map (·.orderId))).find? fun entry => entry.1 == k) := pick_keyed distinct
  have received := slice_tracked pickedKeyed .received id
  rw [within,chosen] at received
  have leftKeyed : Table.Keyed (if batch.direction = .forward then depot.ordersIn remaining else []) := by
    split
    · exact ordersIn_keyed stocked remaining
    · exact List.nodup_nil
  have requeued := slice_tracked leftKeyed .new id
  rw [others] at requeued
  let entries : Nat → List CustodyEvent := fun k => ((depot.ordersIn (selectedItems.map (·.orderId))).row k).elim
    [unknownHanded ⟨.branch,some batch.destinationBranchId,none⟩] fun row => handed ⟨.branch,some batch.destinationBranchId,none⟩ row.order
  have handedOn : slice (receiveSelected now requesterId batchId batch selectedItems depot).custody id =
      slice depot.custody id ++ if id ∈ selectedItems.map (·.orderId) then entries id else [] := by
    dsimp only [receiveSelected]
    rw [slice_append,←slice_keys distinct entries id]
    refine congrArg _ (congrArg (slice · id) (List.flatMap_congr fun k _ => ?_))
    dsimp only [entries]
    unfold Table.row
    cases (depot.ordersIn (selectedItems.map (·.orderId))).find? fun entry => entry.1 == k with
    | none => rfl
    | some entry => rfl
  dsimp only [entries] at handedOn
  rw [chosen] at handedOn
  unfold Depot.thread
  rw [handedOn]
  dsimp only [receiveSelected]
  rw [updateWhere_row,updateWhere_row,Option.map_map,Option.map_map,slice_append,slice_append,←remains,received,requeued]
  cases picked with
  | none => rfl
  | some row => rfl

theorem requeued_passage {id : Nat} {before : Standing} (requeues : Requeues depot op id) (kept : before.isDeleted = false)
    {tracking : List TrackingEvent} {custody : List CustodyEvent} : Passage depot op stop id ⟨some before,tracking,custody⟩
      ⟨some {before with status:=.new},tracking ++ stepped before {before with status:=.new},custody ++ []⟩ := by
  have passage : Passage depot op stop id ⟨some before,tracking,custody⟩ _ := .changed (.requeued requeues kept)
  rw [passed,if_pos rfl] at passage
  exact passage
theorem picked_row (stocked : Stocked depot) {id : Nat} (here : depot.orders.row id = some row) {ids : List Nat} :
    (depot.ordersIn ids).row id = if ids.contains id && live row.order then some row else none := by
  rw [ordersIn_row stocked,here,Option.filter_some]
theorem receiveSelected_passage {selectedItems : List BatchItem} (stocked : Stocked depot) (stored : depot.batches.row batchId = some batch)
    (sent : batch.status = .sent) (scanned : scannedItems (depot.liveItems batchId) orderIds.eraseDups = .ok selectedItems)
    (now : Nat) (requesterId : Option Nat) (id : Nat) :
    Passage depot (.receiveOrders now batchId orderIds requesterId) stop id (depot.thread id)
      ((receiveSelected now (requesterId.getD 0) batchId batch selectedItems depot).thread id) := by
  have distinct : (selectedItems.map (·.orderId)).Nodup :=
    List.Nodup.sublist (List.Sublist.map _ (scanned_sublist scanned)) (liveItems_unique stocked.unique batchId)
  generalize remains : ((depot.liveItems batchId).filter fun item =>
    !(selectedItems.map (·.orderId)).contains item.orderId).map (·.orderId) = remaining
  have thread := receiveSelected_thread stocked distinct now (requesterId.getD 0) batchId batch id _ _ remains.symm rfl rfl
  have apart : id ∈ remaining ↔ id ∈ (depot.liveItems batchId).map (·.orderId) ∧ id ∉ selectedItems.map (·.orderId) := by
    rw [←remains]
    constructor
    · intro member
      obtain ⟨item,listed,rfl⟩ := List.mem_map.mp member
      obtain ⟨inside,unselected⟩ := List.mem_filter.mp listed
      exact ⟨List.mem_map.mpr ⟨item,inside,rfl⟩,by simpa using unselected⟩
    · rintro ⟨member,unselected⟩
      obtain ⟨item,inside,rfl⟩ := List.mem_map.mp member
      exact List.mem_map.mpr ⟨item,List.mem_filter.mpr ⟨inside,by simpa using unselected⟩,rfl⟩
  cases here : depot.orders.row id with
  | none =>
    have unselected : id ∉ selectedItems.map (·.orderId) := by
      intro member
      obtain ⟨item,listed,rfl⟩ := List.mem_map.mp member
      exact (stocked.placed item (mem_liveItems.mp ((scanned_sublist scanned).subset listed)).1).2 here
    have unread : ∀ ids,(depot.ordersIn ids).row id = none := fun ids => by rw [ordersIn_row stocked,here,Option.filter_none]
    have left : Table.row (if batch.direction = .forward then depot.ordersIn remaining else []) id = none := by
      split
      · exact unread remaining
      · rfl
    rw [unread,left,here,if_neg unselected] at thread
    rw [thread,Depot.thread,here]
    simpa using Passage.kept _
  | some row =>
    rw [picked_row stocked here] at thread
    have left : Table.row (if batch.direction = .forward then depot.ordersIn remaining else []) id =
        if batch.direction = .forward ∧ (remaining.contains id && live row.order) = true then some row else none := by
      by_cases forward : batch.direction = .forward
      · simp only [forward,if_true,true_and,picked_row stocked here]
      · simp only [forward,if_false,false_and]
        rfl
    rw [left,here,Option.map_some] at thread
    rw [thread,thread_some here]
    by_cases selected : id ∈ selectedItems.map (·.orderId)
    · have listed : (selectedItems.map (·.orderId)).contains id = true := List.contains_iff_mem.mpr selected
      have unleft : remaining.contains id = false := by
        rw [Bool.eq_false_iff]
        exact fun member => (apart.mp (List.contains_iff_mem.mp member)).2 selected
      rcases alive_or_gone stocked here with alive | gone
      · have kept := live_kept alive
        have after : standing (setColumns now (fun _ => false) (detached (batch.direction == .forward)) (setColumns now (fun _ => true)
            (receivedOrder now (requesterId.getD 0) batch.destinationBranchId) row)).order =
              (standing row.order).arrived .received batch.destinationBranchId := by
          simp [setColumns,kept,receivedOrder,withStatus,atBranch,standing,holderOf,Standing.arrived]
        simp only [listed,unleft,alive,after,selected,Bool.true_and,Bool.false_and,Bool.false_eq_true,and_false,if_true,if_false,
          Option.map_some,Option.map_none,Option.getD_some,Option.getD_none,List.append_nil]
        exact .changed (.received batch.destinationBranchId .received ⟨batch,selectedItems,stored,sent,scanned,selected,rfl⟩ kept (.inl rfl))
      · have dead : live row.order = false := by simp [live,gone]
        simp only [dead,selected,Bool.and_false,Bool.false_eq_true,and_false,if_true,if_false,Option.map_none,Option.getD_none,
          List.append_nil,setColumns_unchosen now _ (.inr gone)]
        exact .unknown _ gone
    · have unlisted : (selectedItems.map (·.orderId)).contains id = false := by
        rw [Bool.eq_false_iff]
        exact fun member => selected (List.contains_iff_mem.mp member)
      by_cases requeues : batch.direction = .forward ∧ (remaining.contains id && live row.order) = true
      · obtain ⟨forward,both⟩ := requeues
        obtain ⟨member,alive⟩ := Bool.and_eq_true_iff.mp both
        have kept := live_kept alive
        have after : standing (setColumns now (fun _ => true) (detached true) row).order = {standing row.order with status:=.new} := by
          simp [setColumns,kept,detached,standing,holderOf]
        simp only [unlisted,member,alive,selected,forward,after,setColumns_unchosen now _ (.inl rfl),Bool.false_and,Bool.and_self,
          Bool.false_eq_true,and_self,beq_self_eq_true,if_true,if_false,Option.map_some,Option.map_none,Option.getD_some,
          Option.getD_none,List.nil_append]
        obtain ⟨inside,outside⟩ := apart.mp (List.contains_iff_mem.mp member)
        have requeued : Requeues depot (.receiveOrders now batchId orderIds requesterId) id :=
          ⟨batch,selectedItems,stored,sent,scanned,forward,inside,outside⟩
        exact requeued_passage requeued kept
      · have stays : standing (setColumns now (fun _ => remaining.contains id) (detached (batch.direction == .forward)) row).order =
            standing row.order := by
          by_cases forward : batch.direction = .forward
          · have unchosen := Bool.eq_false_iff.mpr fun both => requeues ⟨forward,both⟩
            rw [setColumns_unchosen now _ (unpicked stocked here unchosen)]
          · have off : (batch.direction == .forward) = false := by simpa using forward
            rw [off]
            exact setColumns_keeps now _ (detached false) (fun _ => rfl) row
        simp only [unlisted,selected,requeues,stays,setColumns_unchosen now _ (.inl rfl),Bool.false_and,Bool.false_eq_true,if_false,
          Option.map_none,Option.getD_none,List.append_nil]
        exact .kept _

theorem cancelBatch_passage (stocked : Stocked depot) (stored : depot.batches.row batchId = some batch)
    (opened : isOpen batch.status = true) (reasoned : checkReason reason = .ok ()) (now id : Nat) :
    Passage depot (.cancelBatch now batchId reason) stop id (depot.thread id) ((cancelBatch now batchId batch depot).thread id) := by
  let bound := fun (_ : Nat) (row : OrderRow) => row.order.currentBatchId == some batchId && live row.order
  generalize requeue : (batch.direction == .forward && !(depot.orders.select bound).isEmpty) = shouldRequeue
  have keyed := select_keyed stocked.keyed bound
  have picked := row_select stocked.keyed bound id
  have told := slice_tracked keyed .new id
  have thread : (cancelBatch now batchId batch depot).thread id = ⟨(depot.orders.row id).map fun row => standing
        (setColumns now (fun order => order.currentBatchId == some batchId) (detached shouldRequeue) row).order,
      slice depot.tracking id ++ slice (if shouldRequeue then tracked .new (depot.orders.select bound) else []) id,
      slice depot.custody id⟩ := by
    unfold Depot.thread
    dsimp only [cancelBatch]
    rw [updateWhere_row,Option.map_map,slice_append,←requeue]
    rfl
  rw [thread]
  cases here : depot.orders.row id with
  | none =>
    rw [here,Option.filter_none] at picked
    rw [picked,Option.map_none,Option.getD_none] at told
    have untold : slice (if shouldRequeue then tracked .new (depot.orders.select bound) else []) id = [] := by
      split
      · exact told
      · rfl
    rw [untold,List.append_nil,Depot.thread,here]
    exact .kept _
  | some row =>
    rw [here,Option.filter_some] at picked
    rw [picked] at told
    rw [thread_some here,Option.map_some]
    cases chosen : bound id row with
    | false =>
      rw [chosen,if_neg Bool.false_ne_true,Option.map_none,Option.getD_none] at told
      have untold : slice (if shouldRequeue then tracked .new (depot.orders.select bound) else []) id = [] := by
        split
        · exact told
        · rfl
      have stays : setColumns now (fun order => order.currentBatchId == some batchId) (detached shouldRequeue) row = row := by
        rcases Bool.and_eq_false_iff.mp chosen with elsewhere | dead
        · simp [setColumns,elsewhere]
        · rcases alive_or_gone stocked here with alive | gone
          · rw [dead] at alive
            cases alive
          · exact setColumns_gone now _ _ gone
      rw [untold,List.append_nil,stays]
      exact .kept _
    | true =>
      obtain ⟨points,alive⟩ := Bool.and_eq_true_iff.mp chosen
      have kept := live_kept alive
      rw [chosen,if_pos rfl] at picked told
      have nonempty : (depot.orders.select bound).isEmpty = false := by
        cases listed : depot.orders.select bound with
        | nil => rw [listed] at picked; cases picked
        | cons _ _ => rfl
      rw [nonempty,Bool.not_false,Bool.and_true] at requeue
      rw [setColumns_standing now _ (detached shouldRequeue) kept,if_pos points]
      cases shouldRequeue with
      | false =>
        simp only [Bool.false_eq_true,if_false,slice_nil,List.append_nil]
        exact .kept _
      | true =>
        rw [if_pos rfl,told]
        have requeues : Requeues depot (.cancelBatch now batchId reason) id := by
          refine ⟨batch,stored,opened,reasoned,by simpa using requeue,?_⟩
          rw [Depot.pointer,here]
          simpa using points
        have passage : Passage depot (.cancelBatch now batchId reason) stop id
            ⟨some (standing row.order),slice depot.tracking id,slice depot.custody id⟩ _ := requeued_passage requeues kept
        rw [List.append_nil] at passage
        exact passage

-- The events of a send are those of the orders that depart.
theorem tracked_keys {table : Table OrderRow} (status : OrderStatus) (ids : List Nat) :
    (tracked status (ids.filterMap fun id => table.find? fun entry => entry.1 == id)).map (·.1) =
      ids.filter fun id => (table.row id).any fun row => row.order.status != status := by
  induction ids with
  | nil => rfl
  | cons id rest ih =>
    rw [List.filterMap_cons,List.filter_cons]
    cases found : table.find? fun entry => entry.1 == id with
    | none =>
      have absent : table.row id = none := by rw [Table.row,found]; rfl
      rw [absent]
      exact ih
    | some entry =>
      have here := List.find?_some found
      simp only [beq_iff_eq] at here
      have stored : table.row id = some entry.2 := by rw [Table.row,found]; rfl
      rw [stored]
      by_cases same : entry.2.order.status = status
      · simpa [tracked,same] using ih
      · simpa [tracked,same,here] using ih
theorem sendEvents_departing (stocked : Stocked depot) (forward : batch.direction = .forward) (ids : List Nat) :
    (sendEvents batch ids depot).map (·.1) = departing ids depot := by
  unfold sendEvents departing
  rw [if_pos forward,tracked_keys]
  apply List.filter_congr
  intro id member
  rw [ordersIn_row stocked]
  cases depot.orders.row id with
  | none => rfl
  | some row =>
    rw [Option.filter_some,List.contains_iff_mem.mpr member]
    cases alive : live row.order with
    | false => simp [alive]
    | true => simp [alive]
theorem mem_departing {depot : Depot} {id : Nat} (here : depot.orders.row id = some row) :
    id ∈ departing ids depot ↔ id ∈ ids ∧ live row.order = true ∧ row.order.status ≠ .onTheRoad := by
  simp [departing,here]
theorem sendEvents_own (stocked : Stocked depot) (forward : batch.direction = .forward) {ids : List Nat} (distinct : ids.Nodup)
    {id : Nat} (here : depot.orders.row id = some row) (departs : id ∈ departing ids depot) :
    slice (sendEvents batch ids depot) id = [⟨some row.order.status,.onTheRoad⟩] := by
  obtain ⟨listed,alive,waits⟩ := (mem_departing here).mp departs
  have keyed : Table.Keyed (ids.filterMap fun k => (depot.ordersIn ids).find? fun entry => entry.1 == k) := pick_keyed distinct
  have picked : (depot.ordersIn ids).row id = some row := by
    rw [picked_row stocked here,List.contains_iff_mem.mpr listed,alive]
    rfl
  rw [sendEvents,if_pos forward,slice_tracked keyed,row_pick,if_pos listed,picked,Option.map_some,Option.getD_some]
  exact if_neg waits
theorem moves_iff (dispatches : Dispatches depot batchId input batch toMark)
    (upTo : toldBy now batchId random batch toMark depot stop = some n) (id : Nat) :
    (Moves depot (.send now batchId random input) stop id ↔
      id ∈ departing (toMark.map (·.orderId)) depot ∧ depot.pointer id = some batchId) ∧
    (Tells depot (.send now batchId random input) stop id ↔ id ∈ (departing (toMark.map (·.orderId)) depot).take n) := by
  have unique : ∀ other marks m,Dispatches depot batchId input other marks → toldBy now batchId random other marks depot stop = some m →
      marks = toMark ∧ m = n := by
    intro other marks m again told
    have batches := again.stored.symm.trans dispatches.stored
    cases batches
    have marked := again.marked.symm.trans dispatches.marked
    cases marked
    have counts := told.symm.trans upTo
    cases counts
    exact ⟨rfl,rfl⟩
  constructor
  · constructor
    · rintro ⟨other,marks,m,again,told,moved⟩
      obtain ⟨rfl,rfl⟩ := unique other marks m again told
      exact moved
    · exact fun moved => ⟨batch,toMark,n,dispatches,upTo,moved⟩
  · constructor
    · rintro ⟨other,marks,m,again,told,tells⟩
      obtain ⟨rfl,rfl⟩ := unique other marks m again told
      exact tells
    · exact fun tells => ⟨batch,toMark,n,dispatches,upTo,tells⟩
theorem send_passage (stocked : Stocked depot) (stored : depot.batches.row batchId = some batch) (opened : isOpen batch.status = true)
    (checked : checkSendInput input = .ok ()) (sent : sendBatch now batchId random input batch depot = .ok commits) (id : Nat) :
    Passage depot (.send now batchId random input) stop id (depot.thread id) ((applyAll (commits.take stop) depot).thread id) := by
  obtain ⟨toMark,marked,base,sentBatchId,readied,same⟩ :=
    send_until stocked (by simp [stored]) (stocked.kept batchId batch stored) sent stop
  have distinct := (itemsToMark_parts marked (eraseDups_nodup _)).2.1
  generalize marks : toMark.map (·.orderId) = ids at same distinct
  have dispatches : batch.direction = .forward → Dispatches depot batchId input batch toMark :=
    fun forward => ⟨checked,stored,opened,forward,marked⟩
  rw [same]
  split
  · have thread : base.thread id = depot.thread id := by rw [Depot.thread,readied.orders,readied.tracking,readied.custody]; rfl
    rw [thread]
    exact .kept _
  · rename_i n upTo
    have rows : (sendOrders now batchId sentBatchId batch ids base).orders.row id = (depot.orders.row id).map (setColumns now
        (fun order => ids.contains id && order.currentBatchId == some batchId) (sentOrder batch sentBatchId)) := by
      dsimp only [sendOrders]
      rw [updateWhere_row,readied.orders]
    unfold Depot.thread
    dsimp only
    rw [rows,slice_append,show (sendOrders now batchId sentBatchId batch ids base).custody = depot.custody from readied.custody]
    by_cases forward : batch.direction = .forward
    · have keys := sendEvents_departing stocked forward ids
      have once : ((sendEvents batch ids depot).map (·.1)).Nodup := by
        rw [keys]
        exact List.Nodup.filter _ distinct
      have front := slice_front once n id
      rw [List.map_take,keys] at front
      rw [front]
      obtain ⟨moves,tells⟩ := moves_iff (dispatches forward) upTo id
      rw [marks] at moves tells
      cases here : depot.orders.row id with
      | none =>
        have stays : id ∉ departing ids depot := by simp [departing,here]
        rw [if_neg fun told => stays (List.mem_of_mem_take told),List.append_nil]
        exact .kept _
      | some row =>
        have after : standing (setColumns now (fun order => ids.contains id && order.currentBatchId == some batchId)
            (sentOrder batch sentBatchId) row).order =
              if decide (id ∈ departing ids depot ∧ depot.pointer id = some batchId) then {standing row.order with status:=.onTheRoad}
              else standing row.order := by
          have pointer : depot.pointer id = row.order.currentBatchId := by rw [Depot.pointer,here]; rfl
          simp only [mem_departing here,pointer]
          rcases alive_or_gone stocked here with alive | gone
          · rw [setColumns_standing now _ _ (live_kept alive)]
            by_cases bound : id ∈ ids ∧ row.order.currentBatchId = some batchId
            · by_cases waits : row.order.status = .onTheRoad
              · simp [bound,waits,sentOrder,standing,holderOf]
              · simp [bound,waits,alive,forward,sentOrder,standing,holderOf]
            · have unbound : (ids.contains id && row.order.currentBatchId == some batchId) = false := by
                simpa using fun listed => not_and.mp bound listed
              have unmoved : ¬((id ∈ ids ∧ live row.order = true ∧ row.order.status ≠ .onTheRoad) ∧ row.order.currentBatchId = some batchId) :=
                fun moved => bound ⟨moved.1.1,moved.2⟩
              rw [unbound,if_neg Bool.false_ne_true,if_neg]
              exact fun moved => unmoved (of_decide_eq_true moved)
          · have dead : live row.order = false := by simp [live,gone]
            simp [setColumns_gone now _ _ gone,dead]
        have events : (if id ∈ (departing ids depot).take n then slice (sendEvents batch ids depot) id else []) =
            if decide (id ∈ (departing ids depot).take n) then [⟨some (standing row.order).status,.onTheRoad⟩] else [] := by
          by_cases told : id ∈ (departing ids depot).take n
          · rw [if_pos told,sendEvents_own stocked forward distinct here (List.mem_of_mem_take told),if_pos (by simpa using told)]
            rfl
          · rw [if_neg told,if_neg (by simpa using told)]
        rw [Option.map_some,Option.map_some,Option.map_some,after,events]
        exact .sent _ _ (decide_eq_true_iff.trans moves.symm) (decide_eq_true_iff.trans tells.symm)
    · have quiet : sendEvents batch ids depot = [] := if_neg forward
      have stays : ∀ order,standing (sentOrder batch sentBatchId order) = standing order := by
        intro order
        simp [sentOrder,forward,standing,holderOf]
      rw [quiet,List.take_nil,slice_nil,List.append_nil,Option.map_map]
      have same : ((fun row : OrderRow => standing row.order) ∘ setColumns now (fun order => ids.contains id && order.currentBatchId == some batchId)
          (sentOrder batch sentBatchId)) = fun row => standing row.order := funext fun row => setColumns_keeps now _ _ stays row
      rw [same]
      exact .kept _

end Bulk

theorem passage {depot : Depot} (stocked : Stocked depot) (op : Op) (stop id : Nat) :
    Passage depot op stop id (depot.thread id) ((op.performUntil stop depot).thread id) := by
  have still : Passage depot op stop id (depot.thread id) (depot.thread id) := .kept _
  have same : ∀ {next : Depot},next.thread id = depot.thread id → Passage depot op stop id (depot.thread id) (next.thread id) :=
    fun unchanged => unchanged ▸ still
  have one : ∀ {result : Except RpcError Depot},op.commits depot = oneCommit result →
      (∀ next,result = .ok next → Passage depot op stop id (depot.thread id) (next.thread id)) →
      Passage depot op stop id (depot.thread id) ((op.performUntil stop depot).thread id) :=
    fun single each => until_keeps (P:=fun next => Passage depot op stop id (depot.thread id) (next.thread id)) single stop still each
  have several : (∀ commits,op.commits depot = .ok commits →
      Passage depot op stop id (depot.thread id) ((applyAll (commits.take stop) depot).thread id)) →
      Passage depot op stop id (depot.thread id) ((op.performUntil stop depot).thread id) :=
    front_keeps (P:=fun next => Passage depot op stop id (depot.thread id) (next.thread id)) stop still
  cases op with
  | create _ _ _ _ _ => exact one rfl fun next done => create_passage stocked done id
  | updateFull _ _ _ _ => exact several fun commits done => updateFull_passage done id
  | sellOrder _ _ _ _ _ => exact one rfl fun next done => sellOrder_passage done id
  | partlySellOrder _ _ _ _ _ _ => exact one rfl fun next done => partlySell_passage stocked done id
  | cancelOrder _ _ _ _ _ => exact one rfl fun next done => cancelOrder_passage done id
  | rollback _ _ _ _ _ => exact one rfl fun next done => rollback_passage stocked done id
  | markByProvider _ _ _ => exact one rfl fun next done => markByProvider_passage done id
  | markReturned _ _ => exact one rfl fun next done => markReturned_passage done id
  | handover _ _ _ _ _ => exact one rfl fun next done => handover_passage stocked done id
  | createTransfer _ _ => exact one rfl fun next done => same (createTransfer_thread done id)
  | createReturn _ _ => exact one rfl fun next done => same (createReturn_thread done id)
  | bulkAssign _ _ _ _ => exact one rfl fun next done => same (bulkAssign_thread done id)
  | bulkRemove _ _ _ => exact one rfl fun next done => same (bulkRemove_thread done id)
  | send now batchId random input =>
    refine several fun commits done => ?_
    obtain ⟨batch,stored,opened,checked,sent⟩ := sendBranch_parts done
    exact send_passage stocked stored opened checked sent id
  | receive now batchId requesterId =>
    refine one rfl fun next done => ?_
    obtain ⟨batch,stored,sent,rfl⟩ := receive_parts done
    exact receiveBatch_passage stocked stored sent now requesterId id
  | receiveOrders now batchId orderIds requesterId =>
    refine several fun commits done => ?_
    obtain ⟨batch,selectedItems,remaining,stored,sent,scanned,rfl⟩ := receiveOrders_parts done
    have received : ∀ stop,Passage depot (.receiveOrders now batchId orderIds requesterId) stop id (depot.thread id)
        ((receiveSelected now (requesterId.getD 0) batchId batch selectedItems depot).thread id) :=
      fun _ => receiveSelected_passage stocked stored sent scanned now requesterId id
    match stop with
    | 0 => exact .kept _
    | 1 => exact received 1
    | n+2 =>
      simp only [List.take_succ_cons,List.take_nil]
      exact orKeep_keeps (P:=fun next => Passage depot _ _ id (depot.thread id) (next.thread id)) (received _)
        fun next done => rebatch_thread done id ▸ received _
  | cancelBatch now batchId reason =>
    refine one rfl fun next done => ?_
    obtain ⟨batch,stored,opened,reasoned,rfl⟩ := cancel_parts done
    exact cancelBatch_passage stocked stored opened reasoned now id
  | cancelBatches _ _ _ => exact one rfl fun next done => same (cancelBatches_thread done id)

end Elchi.Batches
