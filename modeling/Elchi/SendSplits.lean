import Elchi.DepotStock
namespace Elchi.Batches
open Orders RowLock

-- The batch a send replies with; a part whose key is taken has none.
def sendReply (now batchId : Nat) (random : String) (input : SendInput) (depot : Depot) : Option Nat :=
  match findBatch batchId depot,itemsToMark (depot.liveItems batchId) input.orderIds.eraseDups with
  | .ok batch,.ok toMark =>
    if leavesWhole now batchId toMark depot then some batchId
    else if depot.keyTaken batch.sourceBranchId (splitKey now batchId random) then none
    else some depot.nextBatchId
  | _,_ => none
-- A send whose database refuses the write after `stop` of them; the last write is the row of
-- the batch history. It replies when every write is done.
def sendAttempt (now batchId : Nat) (random : String) (input : SendInput) (stop : Nat) (depot : Depot) : Option Nat × Depot :=
  match sendBranchTransferBatch now batchId random input depot with
  | .error _ => (none,depot)
  | .ok commits => (if commits.length < stop then sendReply now batchId random input depot else none,applyAll (commits.take stop) depot)

-- The selected orders left in one sent batch, the others stayed.
structure SentApart (now batchId sentBatchId : Nat) (ids : List Nat) (batch sent : Batch) (depot next : Depot) : Prop where
  stored : next.batches.row sentBatchId = some sent
  status : sent.status = .sent
  route : sent.sourceBranchId = batch.sourceBranchId ∧ sent.destinationBranchId = batch.destinationBranchId ∧
    sent.direction = batch.direction ∧ sent.targetRegionId = batch.targetRegionId
  items : ∀ item,item ∈ next.liveItems sentBatchId ↔
    ∃ old ∈ depot.liveItems batchId,old.orderId ∈ ids ∧ item = {old with batchId:=sentBatchId,sentAt:=some now}
  counted : sent.orderCount = (next.liveItems sentBatchId).length ∧ sent.totalPrice = snapshotTotal (next.liveItems sentBatchId)
  stayed : (∃ item ∈ depot.liveItems batchId,item.orderId ∉ ids) →
    ∃ rest,next.batches.row batchId = some rest ∧ rest.status = .pending ∧
    (∀ item,item ∈ next.liveItems batchId ↔ item ∈ depot.liveItems batchId ∧ item.orderId ∉ ids) ∧
    rest.orderCount = (next.liveItems batchId).length ∧ rest.totalPrice = snapshotTotal (next.liveItems batchId)
  orders : ∀ id ∈ ids,∀ row,depot.orders.row id = some row → live row.order = true → ∃ after,next.orders.row id = some after ∧
    after.order.currentBatchId = some sentBatchId ∧ (batch.direction = .forward → after.order.status = .onTheRoad)
  others : ∀ id,id ∉ ids → next.orders.row id = depot.orders.row id
-- All or nothing.
def SplitsExactly (now batchId : Nat) (random : String) (input : SendInput) (stop : Nat) (batch : Batch) (depot : Depot) : Prop :=
  match sendAttempt now batchId random input stop depot with
  | (some sentBatchId,next) => ∃ sent,SentApart now batchId sentBatchId input.orderIds batch sent depot next
  | (none,next) => next.batches = depot.batches ∧ next.items = depot.items ∧ next.orders = depot.orders

-- What it takes: the marks are the first write, so that either nothing or everything is written.
def selectsAll (batchId : Nat) (ids : List Nat) (depot : Depot) : Bool := (depot.liveItems batchId).all fun item => ids.contains item.orderId
def sendWrites (batchId : Nat) (input : SendInput) (batch : Batch) (depot : Depot) : Nat :=
  let toTrack := fun id => (depot.orders.row id).any fun row => live row.order && row.order.status != .onTheRoad
  (if selectsAll batchId input.orderIds depot then 3 else 5) +
    (if batch.direction = .forward then input.orderIds.eraseDups.countP toTrack else 0) + 1
structure SendFits (now batchId : Nat) (random : String) (input : SendInput) (stop : Nat) (batch : Batch) (depot : Depot) : Prop where
  written : sendWrites batchId input batch depot ≤ stop
  free : selectsAll batchId input.orderIds depot = false → depot.keyTaken batch.sourceBranchId (splitKey now batchId random) = false
  counted : selectsAll batchId input.orderIds depot = true →
    batch.orderCount = (depot.liveItems batchId).length ∧ batch.totalPrice = snapshotTotal (depot.liveItems batchId)
  bound : ∀ id ∈ input.orderIds,∀ row,depot.orders.row id = some row → live row.order = true →
    row.order.currentBatchId = some batchId ∨ selectsAll batchId input.orderIds depot = false ∧
      row.order.currentBatchId = some depot.nextBatchId ∧ (batch.direction = .forward → row.order.status = .onTheRoad)

theorem eraseDups_filled {ids : List Nat} (filled : ids ≠ []) : ids.eraseDups ≠ [] := fun empty => by
  obtain ⟨id,member⟩ := List.exists_mem_of_ne_nil _ filled
  exact absurd (List.mem_eraseDups.mpr member) (by rw [empty]; exact List.not_mem_nil)

section Attempt
variable {now batchId : Nat} {random : String} {input : SendInput} {batch : Batch} {depot : Depot}

-- In a batch with nothing sent every selection is marked whole.
theorem itemsToMark_all {items : List BatchItem} (unsent : ∀ item ∈ items,item.sentAt = none) {ids : List Nat} (some_ : ids ≠ [])
    (inside : ∀ id ∈ ids,id ∈ items.map (·.orderId)) :
    ∃ toMark,itemsToMark items ids = .ok toMark ∧ toMark.map (·.orderId) = ids := by
  have found : ∀ ids : List Nat,(∀ id ∈ ids,id ∈ items.map (·.orderId)) →
      (ids.filterMap fun id => items.find? fun item => item.orderId == id).map (·.orderId) = ids := by
    intro ids inside
    induction ids with
    | nil => rfl
    | cons id rest ih =>
      obtain ⟨item,there,same⟩ := List.mem_map.mp (inside id List.mem_cons_self)
      cases first : items.find? fun item => item.orderId == id with
      | none => exact absurd (by simpa using same) (List.find?_eq_none.mp first item there)
      | some chosen =>
        have named : chosen.orderId = id := by simpa using List.find?_some first
        rw [List.filterMap_cons,first,List.map_cons,ih fun other listed => inside other (.tail _ listed),named]
  have all : (ids.filterMap fun id => items.find? fun item => item.orderId == id).filter (fun item => item.sentAt.isNone) =
      ids.filterMap fun id => items.find? fun item => item.orderId == id := by
    refine List.filter_eq_self.mpr fun item member => ?_
    obtain ⟨id,-,first⟩ := List.mem_filterMap.mp member
    rw [unsent item (List.mem_of_find?_eq_some first)]
    rfl
  refine ⟨_,?_,found ids inside⟩
  have long : (ids.filterMap fun id => items.find? fun item => item.orderId == id).length = ids.length := by
    rw [←List.length_map (f:=fun item : BatchItem => item.orderId),found ids inside]
  have filled : (ids.filterMap fun id => items.find? fun item => item.orderId == id) ≠ [] := by
    intro empty
    rw [empty] at long
    exact some_ (List.length_eq_zero_iff.mp long.symm)
  simp only [itemsToMark,all]
  rw [if_neg (not_not.mpr long),if_neg (by simpa using filled)]

theorem leavesWhole_exact {toMark : List BatchItem} (unsent : ∀ item ∈ depot.liveItems batchId,item.sentAt = none)
    (same : toMark.map (·.orderId) = ids) : leavesWhole now batchId toMark depot = selectsAll batchId ids depot := by
  rw [leavesWhole,same,mark_liveItems,selectsAll,markItems,List.all_map,Bool.eq_iff_iff,List.all_eq_true,List.all_eq_true]
  refine forall₂_congr fun item member => ?_
  obtain ⟨-,inBatch,-⟩ := mem_liveItems.mp member
  by_cases chosen : item.orderId ∈ ids
  · simp [inBatch,chosen]
  · simp [chosen,unsent item member]

theorem find_row {V : Type} (table : Table V) (id : Nat) :
    table.find? (fun entry => entry.1 == id) = (table.row id).map fun value => (id,value) := by
  unfold Table.row
  cases found : table.find? fun entry => entry.1 == id with
  | none => rfl
  | some entry =>
    have same : entry.1 = id := by simpa using List.find?_some found
    rw [Option.map_some,Option.map_some,←same]
theorem ordersIn_listed {depot : Depot} (stocked : Stocked depot) {ids : List Nat} {id : Nat} (listed : id ∈ ids) :
    (depot.ordersIn ids).row id = (depot.orders.row id).filter fun row => live row.order := by
  rw [Depot.ordersIn,row_select stocked.keyed]
  refine congrArg (fun f => Option.filter f (depot.orders.row id)) (funext fun row => ?_)
  rw [List.contains_iff_mem.mpr listed,Bool.true_and]
theorem sendEvents_length {depot : Depot} (stocked : Stocked depot) (batch : Batch) (ids : List Nat) :
    (sendEvents batch ids depot).length = if batch.direction = .forward then
      ids.countP fun id => (depot.orders.row id).any fun row => live row.order && row.order.status != .onTheRoad else 0 := by
  unfold sendEvents
  split
  · have part : ∀ part : List Nat,(∀ id ∈ part,id ∈ ids) →
        (tracked .onTheRoad (part.filterMap fun id => (depot.ordersIn ids).find? fun entry => entry.1 == id)).length =
          part.countP fun id => (depot.orders.row id).any fun row => live row.order && row.order.status != .onTheRoad := by
      intro part inside
      induction part with
      | nil => rfl
      | cons id rest ih =>
        have later := ih fun other listed => inside other (.tail _ listed)
        rw [List.countP_cons,List.filterMap_cons,find_row,ordersIn_listed stocked (inside id List.mem_cons_self)]
        cases here : depot.orders.row id with
        | none => simpa [here] using later
        | some row =>
          by_cases alive : live row.order = true
          · by_cases there : row.order.status = .onTheRoad <;> simp_all [tracked,Option.filter_some]
          · simp_all [Option.filter_some]
    exact part ids fun _ listed => listed
  · rfl
end Attempt

-- The orders a send reaches.
section Sent
variable {now batchId sentBatchId id : Nat} {batch : Batch} {ids : List Nat} {base : Depot}

theorem sendOrders_row (now batchId sentBatchId : Nat) (batch : Batch) (ids : List Nat) (base : Depot) (id : Nat) :
    (sendOrders now batchId sentBatchId batch ids base).orders.row id = (base.orders.row id).map
      (setColumns now (fun order => ids.contains id && order.currentBatchId == some batchId) (sentOrder batch sentBatchId)) :=
  updateWhere_row now (fun key order => ids.contains key && order.currentBatchId == some batchId) (sentOrder batch sentBatchId) base.orders id
theorem sendOrders_others (apart : id ∉ ids) : (sendOrders now batchId sentBatchId batch ids base).orders.row id = base.orders.row id := by
  rw [sendOrders_row]
  have absent : ids.contains id = false := by simpa using apart
  cases base.orders.row id with
  | none => rfl
  | some row => simp only [setColumns,absent,Bool.false_and,Bool.and_false,Bool.false_eq_true,↓reduceIte,Option.map_some]
theorem sendOrders_reached (member : id ∈ ids) (here : base.orders.row id = some row) (alive : live row.order = true) :
    (∃ after,(sendOrders now batchId sentBatchId batch ids base).orders.row id = some after ∧
        after.order.currentBatchId = some sentBatchId ∧ (batch.direction = .forward → after.order.status = .onTheRoad)) ↔
      row.order.currentBatchId = some batchId ∨
        row.order.currentBatchId = some sentBatchId ∧ (batch.direction = .forward → row.order.status = .onTheRoad) := by
  rw [sendOrders_row,here,Option.map_some]
  by_cases bound : row.order.currentBatchId = some batchId
  · have moved : setColumns now (fun order => ids.contains id && order.currentBatchId == some batchId) (sentOrder batch sentBatchId) row =
        {row with order:={sentOrder batch sentBatchId row.order with updatedAt:=now}} :=
      if_pos (by simp [live_kept alive,member,bound])
    rw [moved]
    exact ⟨fun _ => .inl bound,fun _ => ⟨_,rfl,rfl,fun forward => if_pos forward⟩⟩
  · have still : setColumns now (fun order => ids.contains id && order.currentBatchId == some batchId) (sentOrder batch sentBatchId) row =
        row := by simp [setColumns,bound]
    rw [still]
    constructor
    · rintro ⟨after,same,points,road⟩
      cases same
      exact .inr ⟨points,road⟩
    · rintro (points | ⟨points,road⟩)
      · exact absurd points bound
      · exact ⟨row,rfl,points,road⟩
end Sent

-- The marks are written first, and nothing takes them back.
section Marks
variable {now batchId sentBatchId id : Nat} {ids : List Nat}

def Marked (batchId id : Nat) (depot : Depot) : Prop := ∀ item ∈ depot.liveItems batchId,item.orderId = id → item.sentAt ≠ none
theorem markSent_marked {depot : Depot} (member : id ∈ ids) : Marked batchId id (markSent now batchId ids depot) := by
  intro item listed same
  rw [mark_liveItems] at listed
  obtain ⟨old,there,rfl⟩ := List.mem_map.mp listed
  obtain ⟨-,inBatch,-⟩ := mem_liveItems.mp there
  split at same
  · rw [if_pos ⟨inBatch,same ▸ member⟩]
    exact fun none => nomatch none
  · rename_i apart
    exact absurd ⟨inBatch,same ▸ member⟩ apart
theorem marked_same {depot next : Depot} (marked : Marked batchId id depot) (same : next.items = depot.items) : Marked batchId id next := by
  intro item listed
  rw [Depot.liveItems,same] at listed
  exact marked item listed
theorem moveTo_marked {depot : Depot} (marked : Marked batchId id depot) (apart : sentBatchId ≠ batchId) :
    Marked batchId id (moveTo batchId sentBatchId ids depot) := by
  intro item listed
  have left : item ∈ (depot.liveItems batchId).filter fun item => !decide (item.orderId ∈ ids) := by
    rw [Depot.liveItems,moveTo,moveItems_from apart] at listed
    exact listed
  exact marked item (List.mem_of_mem_filter left)
theorem applyAll_keeps {P : Depot → Prop} {commits : List (Depot → Depot)} (each : ∀ commit ∈ commits,∀ depot,P depot → P (commit depot))
    {depot : Depot} (holds : P depot) : P (applyAll commits depot) := by
  induction commits generalizing depot with
  | nil => exact holds
  | cons commit rest ih =>
    exact ih (fun other listed => each other (.tail _ listed)) (each commit List.mem_cons_self depot holds)
theorem marked_unlike {depot : Depot} {rest : List (Depot → Depot)} (member : id ∈ ids)
    (unsent : ∃ item ∈ depot.liveItems batchId,item.orderId = id ∧ item.sentAt = none)
    (keeps : ∀ commit ∈ rest,∀ current,Marked batchId id current → Marked batchId id (commit current)) (stop : Nat) :
    (applyAll ((markSent now batchId ids :: rest).take (stop+1)) depot).items ≠ depot.items := by
  intro same
  have marked : Marked batchId id (applyAll (rest.take stop) (markSent now batchId ids depot)) :=
    applyAll_keeps (fun commit listed => keeps commit (List.mem_of_mem_take listed)) (markSent_marked member)
  obtain ⟨item,there,named,none⟩ := unsent
  refine marked item ?_ named none
  change (applyAll (rest.take stop) (markSent now batchId ids depot)).items = depot.items at same
  rw [Depot.liveItems,same]
  exact there
end Marks

-- What a whole batch and a part leave in the tables.
section Exact
variable {now batchId : Nat} {random : String} {input : SendInput} {batch : Batch} {depot next : Depot} {toMark : List BatchItem}

theorem whole_apart (all : selectsAll batchId input.orderIds depot = true)
    (batches : next.batches = depot.batches.put batchId (sentBatch now input batch))
    (items : next.items = markItems now batchId input.orderIds.eraseDups depot.items)
    (orders : next.orders = (sendOrders now batchId batchId batch input.orderIds.eraseDups depot).orders) :
    (∃ sent,SentApart now batchId batchId input.orderIds batch sent depot next) ↔
      (batch.orderCount = (depot.liveItems batchId).length ∧ batch.totalPrice = snapshotTotal (depot.liveItems batchId)) ∧
      ∀ id ∈ input.orderIds,∀ row,depot.orders.row id = some row → live row.order = true → row.order.currentBatchId = some batchId := by
  have listed : next.liveItems batchId = markItems now batchId input.orderIds.eraseDups (depot.liveItems batchId) := by
    rw [Depot.liveItems,items]
    exact mark_liveItems depot batchId
  have count : (next.liveItems batchId).length = (depot.liveItems batchId).length := by rw [listed,markItems,List.length_map]
  have total : snapshotTotal (next.liveItems batchId) = snapshotTotal (depot.liveItems batchId) := by rw [listed,markItems_total]
  have stored : next.batches.row batchId = some (sentBatch now input batch) := by rw [batches,row_put,if_pos rfl]
  have everyone : ∀ item ∈ depot.liveItems batchId,item.orderId ∈ input.orderIds := fun item member =>
    List.contains_iff_mem.mp (List.all_eq_true.mp all item member)
  constructor
  · rintro ⟨sent,apart⟩
    obtain rfl : sentBatch now input batch = sent := Option.some.inj (stored.symm.trans apart.stored)
    refine ⟨by rw [←count,←total]; exact apart.counted,fun id member row here alive => ?_⟩
    have reached := apart.orders id member row here alive
    rw [orders] at reached
    rcases (sendOrders_reached (List.mem_eraseDups.mpr member) here alive).mp reached with points | ⟨points,-⟩
    · exact points
    · exact points
  · rintro ⟨counted,bound⟩
    refine ⟨_,⟨stored,rfl,⟨rfl,rfl,rfl,rfl⟩,fun item => ?_,by rw [count,total]; exact counted,?_,?_,?_⟩⟩
    · rw [listed,markItems,List.mem_map]
      refine exists_congr fun old => and_congr_right fun member => ?_
      obtain ⟨-,inBatch,-⟩ := mem_liveItems.mp member
      rw [if_pos ⟨inBatch,List.mem_eraseDups.mpr (everyone old member)⟩,eq_comm]
      subst inBatch
      exact ⟨fun same => ⟨everyone old member,same⟩,fun both => both.2⟩
    · rintro ⟨item,member,apart⟩
      exact absurd (everyone item member) apart
    · intro id member row here alive
      rw [orders]
      exact (sendOrders_reached (List.mem_eraseDups.mpr member) here alive).mpr (.inl (bound id member row here alive))
    · intro id apart
      rw [orders]
      exact sendOrders_others fun member => apart (List.mem_eraseDups.mp member)

theorem markItems_apart {items : List BatchItem} {ids : List Nat} (apart : ∀ item ∈ items,item.orderId ∉ ids) :
    markItems now batchId ids items = items := by
  refine (List.map_congr_left fun item member => ?_).trans (List.map_id _)
  exact if_neg fun both => apart item member both.2
theorem part_apart (stocked : Stocked depot) (stored : depot.batches.row batchId = some batch)
    (unsent : ∀ item ∈ depot.liveItems batchId,item.sentAt = none) (toMarkIds : toMark.map (·.orderId) = input.orderIds.eraseDups)
    (inside : ∀ item ∈ toMark,item ∈ depot.liveItems batchId)
    (batches : next.batches = (depot.batches.put depot.nextBatchId (splitBatch now batchId random input toMark batch)).put batchId
      (remainingBatch (((markSent now batchId input.orderIds.eraseDups depot).liveItems batchId).filter fun item => item.sentAt.isNone) batch))
    (items : next.items = moveItems batchId depot.nextBatchId input.orderIds.eraseDups
      (markItems now batchId input.orderIds.eraseDups depot.items))
    (orders : next.orders = (sendOrders now batchId depot.nextBatchId batch input.orderIds.eraseDups depot).orders) :
    (∃ sent,SentApart now batchId depot.nextBatchId input.orderIds batch sent depot next) ↔
      ∀ id ∈ input.orderIds,∀ row,depot.orders.row id = some row → live row.order = true → row.order.currentBatchId = some batchId ∨
        row.order.currentBatchId = some depot.nextBatchId ∧ (batch.direction = .forward → row.order.status = .onTheRoad) := by
  let ids := input.orderIds.eraseDups
  have apart : depot.nextBatchId ≠ batchId := fun same =>
    absurd (stocked.below batchId (by rw [stored]; exact fun none => nomatch none)) (by omega)
  have fresh : ∀ item ∈ markItems now batchId ids depot.items,item.batchId ≠ depot.nextBatchId :=
    fun item member => Nat.ne_of_lt (markItems_below (fun old there => (stocked.placed old there).1) item member)
  have live : (markItems now batchId ids depot.items).filter (liveIn batchId) = markItems now batchId ids (depot.liveItems batchId) :=
    mark_liveItems depot batchId
  have sentItems : next.liveItems depot.nextBatchId = ((markItems now batchId ids (depot.liveItems batchId)).filter
      fun item => decide (item.orderId ∈ ids)).map fun item => {item with batchId:=depot.nextBatchId} := by
    rw [Depot.liveItems,items,moveItems_to fresh,live]
  have keptItems : next.liveItems batchId = (depot.liveItems batchId).filter fun item => !decide (item.orderId ∈ ids) := by
    rw [Depot.liveItems,items,moveItems_from apart,live,markItems_filter _ (fun _ _ => rfl),markItems_apart]
    exact fun item member => by simpa only [Bool.not_eq_true',decide_eq_false_iff_not] using (List.mem_filter.mp member).2
  have perm : toMark.Perm ((depot.liveItems batchId).filter fun item => decide (item.orderId ∈ ids)) := by
    have chosen := toMark_perm stocked.unique inside (by rw [toMarkIds]; exact eraseDups_nodup _)
    rwa [toMarkIds] at chosen
  have moved : next.liveItems depot.nextBatchId = (markItems now batchId ids ((depot.liveItems batchId).filter
      fun item => decide (item.orderId ∈ ids))).map fun item => {item with batchId:=depot.nextBatchId} := by
    rw [sentItems,markItems_filter _ (fun _ _ => rfl)]
  have count : toMark.length = (next.liveItems depot.nextBatchId).length := by
    rw [moved,List.length_map,markItems,List.length_map]
    exact perm.length_eq
  have total : snapshotTotal toMark = snapshotTotal (next.liveItems depot.nextBatchId) := by
    rw [moved,snapshotTotal,snapshotTotal,List.map_map]
    refine (perm.map _).sum_eq.trans ?_
    exact (markItems_total _).symm
  have rest : ((markSent now batchId ids depot).liveItems batchId).filter (fun item => item.sentAt.isNone) = next.liveItems batchId := by
    rw [unsent_rest unsent,keptItems,mark_liveItems,markItems_filter _ (fun _ _ => rfl),markItems_apart]
    exact fun item member => by simpa only [Bool.not_eq_true',decide_eq_false_iff_not] using (List.mem_filter.mp member).2
  have storedPart : next.batches.row depot.nextBatchId = some (splitBatch now batchId random input toMark batch) := by
    rw [batches,row_put,if_neg apart.symm,row_put,if_pos rfl]
  constructor
  · rintro ⟨sent,settled⟩ id member row here alive
    have reached := settled.orders id member row here alive
    rw [orders] at reached
    exact (sendOrders_reached (List.mem_eraseDups.mpr member) here alive).mp reached
  · intro bound
    refine ⟨_,⟨storedPart,rfl,⟨rfl,rfl,rfl,rfl⟩,fun item => ?_,⟨count,total⟩,fun _ => ?_,?_,?_⟩⟩
    · rw [moved,List.mem_map]
      constructor
      · rintro ⟨marked,listed,rfl⟩
        obtain ⟨old,there,rfl⟩ := List.mem_map.mp listed
        obtain ⟨member,selected⟩ := List.mem_filter.mp there
        have selected : old.orderId ∈ ids := of_decide_eq_true selected
        refine ⟨old,member,List.mem_eraseDups.mp selected,?_⟩
        rw [if_pos ⟨(mem_liveItems.mp member).2.1,selected⟩]
      · rintro ⟨old,member,selected,rfl⟩
        have selected : old.orderId ∈ ids := List.mem_eraseDups.mpr selected
        refine ⟨{old with sentAt:=some now},List.mem_map.mpr ⟨old,List.mem_filter.mpr ⟨member,decide_eq_true selected⟩,?_⟩,rfl⟩
        exact if_pos ⟨(mem_liveItems.mp member).2.1,selected⟩
    · refine ⟨_,by rw [batches,row_put,if_pos rfl],rfl,fun item => ?_,?_⟩
      · rw [keptItems,List.mem_filter,Bool.not_eq_true',decide_eq_false_iff_not]
        exact and_congr_right fun _ => not_congr List.mem_eraseDups
      · rw [remainingBatch,rest]
        exact ⟨rfl,rfl⟩
    · intro id member row here alive
      rw [orders]
      exact (sendOrders_reached (List.mem_eraseDups.mpr member) here alive).mpr (bound id member row here alive)
    · intro id other
      rw [orders]
      exact sendOrders_others fun member => other (List.mem_eraseDups.mp member)
end Exact

section Send
variable {batchId : Nat} {input : SendInput} {batch : Batch} {depot : Depot} (now : Nat) (random : String)
  (stocked : Stocked depot) (stored : depot.batches.row batchId = some batch) (pending : batch.status = .pending)
  (unsent : ∀ item ∈ depot.liveItems batchId,item.sentAt = none) (chosen : input.orderIds ≠ [])
  (inside : ∀ id ∈ input.orderIds,id ∈ (depot.liveItems batchId).map (·.orderId))

def noVehicle (input : SendInput) : Prop := jsTrim input.vehiclePlate = "" ∨ jsTrim input.driverName = "" ∨ jsTrim input.driverPhone = ""
instance : Decidable (noVehicle input) := inferInstanceAs (Decidable (_ ∨ _))

include chosen in
theorem send_refused (missing : noVehicle input) : sendBranchTransferBatch now batchId random input depot =
    .error (badRequest "Avtomobil ma'lumotlari majburiy") := by
  have refused : checkSendInput input = .error (badRequest "Avtomobil ma'lumotlari majburiy") := by
    rw [checkSendInput,if_neg (by simpa using chosen)]
    exact if_pos missing
  rw [sendBranchTransferBatch,refused]
  rfl

include stocked stored pending unsent chosen inside in
-- The writes of an accepted send and the batch it replies with, by the three ways.
theorem send_ways (given : ¬noVehicle input) : ∃ toMark,toMark.map (·.orderId) = input.orderIds.eraseDups ∧
    (∀ item ∈ toMark,item ∈ depot.liveItems batchId) ∧
    let ids := input.orderIds.eraseDups
    let events := trackEach (sendEvents batch ids depot)
    let rest := ((markSent now batchId ids depot).liveItems batchId).filter fun item => item.sentAt.isNone
    let whole := [(·.saveBatch batchId (sentBatch now input batch)),sendOrders now batchId batchId batch ids] ++ events
    let part := [(·.insertBatch (splitBatch now batchId random input toMark batch)),moveTo batchId depot.nextBatchId ids,
      (·.saveBatch batchId (remainingBatch rest batch)),sendOrders now batchId depot.nextBatchId batch ids] ++ events
    let taken := depot.keyTaken batch.sourceBranchId (splitKey now batchId random)
    sendBranchTransferBatch now batchId random input depot = .ok (markSent now batchId ids ::
        if selectsAll batchId input.orderIds depot then whole else if taken then [] else part) ∧
      sendReply now batchId random input depot = if selectsAll batchId input.orderIds depot then some batchId
        else if taken then none else some depot.nextBatchId := by
  obtain ⟨toMark,marks,ids⟩ := itemsToMark_all unsent (eraseDups_filled chosen) fun id member => inside id (List.mem_eraseDups.mp member)
  have each := (itemsToMark_parts marks (eraseDups_nodup _)).1
  have whole : leavesWhole now batchId toMark depot = selectsAll batchId input.orderIds depot := by
    rw [leavesWhole_exact unsent ids,selectsAll,selectsAll]
    simp only [List.contains_eq_mem,List.mem_eraseDups]
  have allowed : checkSendInput input = .ok () := by
    rw [checkSendInput,if_neg (by simpa using chosen)]
    exact if_neg given
  refine ⟨toMark,ids,fun item member => (each item member).1,?_,?_⟩
  · have opened : sendBranchTransferBatch now batchId random input depot = sendBatch now batchId random input batch depot := by
      have ready : checkSend batch = .ok () := by rw [checkSend,pending]
      rw [sendBranchTransferBatch,allowed,findBatch_stored stocked stored]
      change (checkSend batch).bind (fun _ => sendBatch now batchId random input batch depot) = _
      rw [ready]
      rfl
    rw [opened,sendBatch,marks,←whole,leavesWhole,ids]
    change (if _ then _ else if _ then _ else _) = _
    rw [ids]
    split
    · rfl
    split
    · rfl
    · rfl
  · rw [sendReply,findBatch_stored stocked stored,marks]
    simp only [whole]

include stocked stored pending unsent chosen inside in
theorem send_first (given : ¬noVehicle input) (n : Nat) :
    (sendAttempt now batchId random input (n+1) depot).2.items ≠ depot.items := by
  obtain ⟨toMark,-,-,sent,-⟩ := send_ways now random stocked stored pending unsent chosen inside given
  obtain ⟨id,member⟩ := List.exists_mem_of_ne_nil _ chosen
  obtain ⟨item,there,same⟩ := List.mem_map.mp (inside id member)
  have apart : depot.nextBatchId ≠ batchId := fun same =>
    absurd (stocked.below batchId (by rw [stored]; exact fun none => nomatch none)) (by omega)
  have tracks : ∀ commit ∈ trackEach (sendEvents batch input.orderIds.eraseDups depot),∀ current,
      Marked batchId id current → Marked batchId id (commit current) := by
    intro commit listed current marked
    obtain ⟨event,-,rfl⟩ := List.mem_map.mp listed
    exact marked_same marked rfl
  rw [sendAttempt,sent]
  refine marked_unlike (List.mem_eraseDups.mpr member) ⟨item,there,same,unsent item there⟩ ?_ n
  intro commit listed current marked
  split at listed
  · rcases List.mem_append.mp listed with here | event
    · simp only [List.mem_cons,List.not_mem_nil,or_false] at here
      rcases here with rfl | rfl
      · exact marked_same marked rfl
      · exact marked_same marked rfl
    · exact tracks commit event current marked
  split at listed
  · cases listed
  · rcases List.mem_append.mp listed with here | event
    · simp only [List.mem_cons,List.not_mem_nil,or_false] at here
      rcases here with rfl | rfl | rfl | rfl
      · exact marked_same marked rfl
      · exact moveTo_marked marked apart
      · exact marked_same marked rfl
      · exact marked_same marked rfl
    · exact tracks commit event current marked
end Send

theorem applyAll_events (commits : List (Depot → Depot)) (events : Journal TrackingEvent) (depot : Depot) :
    applyAll (commits ++ trackEach events) depot =
      {applyAll commits depot with tracking:=(applyAll commits depot).tracking ++ events} := by
  rw [←applyAll_trackEach]
  exact List.foldl_append
-- A send splits its batch exactly, or leaves everything, just when it writes nothing or writes all it should.
theorem send_splits {batchId : Nat} (now : Nat) (random : String) {input : SendInput} (stop : Nat) {batch : Batch} {depot : Depot}
    (stocked : Stocked depot) (stored : depot.batches.row batchId = some batch) (pending : batch.status = .pending)
    (unsent : ∀ item ∈ depot.liveItems batchId,item.sentAt = none) (chosen : input.orderIds ≠ [])
    (inside : ∀ id ∈ input.orderIds,id ∈ (depot.liveItems batchId).map (·.orderId)) :
    SplitsExactly now batchId random input stop batch depot ↔
      noVehicle input ∨ stop = 0 ∨ SendFits now batchId random input stop batch depot := by
  by_cases given : noVehicle input
  · rw [SplitsExactly,sendAttempt,send_refused now random chosen given]
    exact ⟨fun _ => .inl given,fun _ => ⟨rfl,rfl,rfl⟩⟩
  obtain ⟨toMark,ids,listed,sent,reply⟩ := send_ways now random stocked stored pending unsent chosen inside given
  match stop with
  | 0 =>
    rw [SplitsExactly,sendAttempt,sent]
    exact ⟨fun _ => .inr (.inl rfl),fun _ => ⟨rfl,rfl,rfl⟩⟩
  | n+1 =>
  have changed := send_first now random stocked stored pending unsent chosen inside given n
  have events := sendEvents_length stocked batch input.orderIds.eraseDups
  have tracks : (trackEach (sendEvents batch input.orderIds.eraseDups depot)).length =
      (sendEvents batch input.orderIds.eraseDups depot).length := List.length_map _
  have short (none : (sendAttempt now batchId random input (n+1) depot).1 = none) :
      ¬SplitsExactly now batchId random input (n+1) batch depot := by
    unfold SplitsExactly
    cases result : sendAttempt now batchId random input (n+1) depot with
    | mk reply next =>
      rw [result] at none changed
      cases none
      exact fun kept => changed kept.2.1
  have only : (noVehicle input ∨ n + 1 = 0 ∨ SendFits now batchId random input (n+1) batch depot) ↔
      SendFits now batchId random input (n+1) batch depot := by simp [given]
  rw [only]
  cases all : selectsAll batchId input.orderIds depot with
  | true =>
    rw [if_pos all] at sent reply
    have count : sendWrites batchId input batch depot = (sendEvents batch input.orderIds.eraseDups depot).length + 4 := by
      rw [sendWrites,if_pos all,events]
      omega
    by_cases done : sendWrites batchId input batch depot ≤ n+1
    · rw [SplitsExactly,sendAttempt,sent]
      dsimp only
      rw [if_pos (by simp only [List.length_cons,List.length_append,List.length_nil,tracks]; omega),reply,
        List.take_of_length_le (by simp only [List.length_cons,List.length_append,List.length_nil,tracks]; omega),
        ←List.cons_append,applyAll_events]
      refine Iff.trans (whole_apart all rfl rfl rfl) ⟨fun both => ?_,fun fits => ?_⟩
      · exact ⟨done,fun part => absurd all (by simp [part]),fun _ => both.1,fun id member row here alive =>
          .inl (both.2 id member row here alive)⟩
      · refine ⟨fits.counted all,fun id member row here alive => ?_⟩
        rcases fits.bound id member row here alive with points | ⟨part,-⟩
        · exact points
        · exact absurd all (by simp [part])
    · refine iff_of_false (short ?_) fun fits => done fits.written
      rw [sendAttempt,sent]
      exact if_neg (by simp only [List.length_cons,List.length_append,List.length_nil,tracks]; omega)
  | false =>
    have notAll : ¬selectsAll batchId input.orderIds depot = true := by simp [all]
    rw [if_neg notAll] at sent reply
    cases taken : depot.keyTaken batch.sourceBranchId (splitKey now batchId random) with
    | true =>
      rw [if_pos taken] at reply
      refine iff_of_false (short ?_) fun fits => absurd (fits.free all) (by simp [taken])
      rw [sendAttempt,sent]
      dsimp only
      rw [reply,ite_self]
    | false =>
      have free : ¬depot.keyTaken batch.sourceBranchId (splitKey now batchId random) = true := by simp [taken]
      rw [if_neg free] at sent reply
      have count : sendWrites batchId input batch depot = (sendEvents batch input.orderIds.eraseDups depot).length + 6 := by
        rw [sendWrites,if_neg notAll,events]
        omega
      by_cases done : sendWrites batchId input batch depot ≤ n+1
      · rw [SplitsExactly,sendAttempt,sent]
        dsimp only
        rw [if_pos (by simp only [List.length_cons,List.length_append,List.length_nil,tracks]; omega),reply,
          List.take_of_length_le (by simp only [List.length_cons,List.length_append,List.length_nil,tracks]; omega),
          ←List.cons_append,applyAll_events]
        refine Iff.trans (part_apart stocked stored unsent ids listed rfl rfl rfl) ⟨fun bound => ?_,fun fits => ?_⟩
        · refine ⟨done,fun _ => taken,fun whole => absurd whole notAll,fun id member row here alive => ?_⟩
          exact (bound id member row here alive).imp_right fun points => ⟨all,points⟩
        · exact fun id member row here alive => (fits.bound id member row here alive).imp_right fun points => points.2
      · refine iff_of_false (short ?_) fun fits => done fits.written
        rw [sendAttempt,sent]
        exact if_neg (by simp only [List.length_cons,List.length_append,List.length_nil,tracks]; omega)

-- One of two parcels leaves: with every write, and with the database gone after the first.
def packedBatch : Batch := {newBatch 10 2 4 .forward 3 "transfer-1" with orderCount:=2,totalPrice:=350}
theorem packed_stocked : Stocked packed := by
  have reached : packed = performAll emptyDepot [parcel 100,parcel 250,.createTransfer 10 transfer] := twoParcels_packed.symm
  rw [reached]
  exact reached_stocked _
theorem send_splits_parcel : SplitsExactly 11 1 "ff" (truck [1]) 7 packedBatch packed ↔
    noVehicle (truck [1]) ∨ 7 = 0 ∨ SendFits 11 1 "ff" (truck [1]) 7 packedBatch packed :=
  send_splits 11 "ff" 7 packed_stocked rfl rfl (by decide) (by decide) (by decide)
theorem send_splits_half : Stocked packed ∧ packed.batches.row 1 = some packedBatch ∧
    (∀ item ∈ packed.liveItems 1,item.sentAt = none) ∧ 1 ∈ (packed.liveItems 1).map (·.orderId) ∧
    (sendAttempt 11 1 "ff" (truck [1]) 1 packed).1 = none ∧
    (sendAttempt 11 1 "ff" (truck [1]) 1 packed).2.items.map (fun item => (item.orderId,item.sentAt)) = [(1,some 11),(2,none)] ∧
    ¬SplitsExactly 11 1 "ff" (truck [1]) 1 packedBatch packed := by
  refine ⟨packed_stocked,rfl,by decide,by decide,by decide,by decide,fun splits => ?_⟩
  have half : (sendAttempt 11 1 "ff" (truck [1]) 1 packed).1 = none ∧
      (sendAttempt 11 1 "ff" (truck [1]) 1 packed).2.items ≠ packed.items := by decide
  unfold SplitsExactly at splits
  cases result : sendAttempt 11 1 "ff" (truck [1]) 1 packed with
  | mk reply next =>
    rw [result] at splits half
    cases half.1
    exact half.2 splits.2.1

end Elchi.Batches
