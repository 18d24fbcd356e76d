import Elchi.OrderLives
import Mathlib.Data.List.Perm.Subperm
namespace Elchi.Batches
open Orders RowLock

-- A table rewritten row by row.
theorem map_row {V : Type} (table : Table V) (f : Nat → V → V) (key : Nat) :
    Table.row (table.map fun entry => (entry.1,f entry.1 entry.2)) key = (table.row key).map (f key) := by
  induction table with
  | nil => rfl
  | cons entry rest ih =>
    rw [List.map_cons,row_cons,row_cons,ih]
    by_cases same : entry.1 = key
    · simp [same]
    · simp [same]
theorem map_keyed {V : Type} {table : Table V} (f : Nat → V → V) (keyed : table.Keyed) :
    Table.Keyed (table.map fun entry => (entry.1,f entry.1 entry.2)) := by
  simpa [Table.Keyed,Function.comp_def] using keyed

theorem update_row {V : Type} (key : Nat) (save : V → V) (table : Table V) (id : Nat) :
    ((Write.update key save).apply table).row id = if key = id then (table.row id).map save else table.row id :=
  apply_row (.update key save) table id

-- An update that keeps what is looked at keeps it of the whole table.
theorem update_view {V W : Type} (view : V → W) (key : Nat) (save : V → V) (kept : ∀ v,view (save v) = view v) (table : Table V) :
    ((Write.update key save).apply table).map (fun entry => (entry.1,view entry.2)) = table.map fun entry => (entry.1,view entry.2) := by
  unfold Write.apply Write.result Write.key
  induction table with
  | nil => rfl
  | cons entry rest ih =>
    obtain ⟨k,v⟩ := entry
    simp only [row_cons]
    by_cases same : k = key
    · simp [same,Table.put,kept]
    · simp only [same,if_false] at ih ⊢
      cases found : Table.row rest key with
      | none => simp
      | some old =>
        simp only [found,Option.map_some] at ih ⊢
        simp only [Table.put,same,if_false,List.map_cons,ih]

theorem updateWhere_row (now : Nat) (condition : Nat → Order → Bool) (set : Order → Order) (orders : Table OrderRow) (id : Nat) :
    (updateWhere now condition set orders).row id = (orders.row id).map (setColumns now (condition id) set) :=
  map_row orders (fun key => setColumns now (condition key) set) id
theorem updateWhere_keyed (now : Nat) (condition : Nat → Order → Bool) (set : Order → Order) {orders : Table OrderRow}
    (keyed : orders.Keyed) : (updateWhere now condition set orders).Keyed :=
  map_keyed (fun key => setColumns now (condition key) set) keyed

theorem select_keyed {V : Type} {table : Table V} (keyed : table.Keyed) (sel : Nat → V → Bool) : (table.select sel).Keyed :=
  List.Nodup.sublist (List.Sublist.map _ List.filter_sublist) keyed
theorem row_select {V : Type} {table : Table V} (keyed : table.Keyed) (sel : Nat → V → Bool) (key : Nat) :
    (table.select sel).row key = (table.row key).filter (sel key) := by
  cases stored : table.row key with
  | none =>
    rw [Option.filter_none]
    apply row_none.mpr
    intro member
    obtain ⟨entry,listed,rfl⟩ := List.mem_map.mp member
    have found : table.row entry.1 = some entry.2 := (select_row keyed listed).1
    rw [stored] at found
    cases found
  | some value =>
    have listed := (row_exact keyed).mpr stored
    cases chosen : sel key value with
    | true =>
      rw [Option.filter_some_pos chosen]
      exact (row_exact (select_keyed keyed sel)).mp (List.mem_filter.mpr ⟨listed,chosen⟩)
    | false =>
      rw [Option.filter_some_neg (by simp [chosen])]
      apply row_none.mpr
      intro member
      obtain ⟨entry,present,rfl⟩ := List.mem_map.mp member
      obtain ⟨found,selected⟩ : table.row entry.1 = some entry.2 ∧ sel entry.1 entry.2 = true := select_row keyed present
      rw [stored] at found
      cases found
      rw [chosen] at selected
      cases selected

theorem eraseDups_nodup {κ : Type} [BEq κ] [LawfulBEq κ] : ∀ ids : List κ,ids.eraseDups.Nodup
  | [] => List.nodup_nil
  | first :: rest => by
    rw [List.eraseDups_cons,List.nodup_cons]
    exact ⟨by simp [List.mem_eraseDups],eraseDups_nodup _⟩
termination_by ids => ids.length
decreasing_by
  rw [List.length_cons]
  exact Nat.lt_succ_of_le (List.length_filter_le _ _)

theorem findOrder_parts {id : Nat} (found : findOrder id depot = .ok row) : depot.orders.row id = some row ∧ live row.order = true := by
  unfold findOrder at found
  split at found
  · rename_i stored here
    split at found
    · rename_i alive
      cases found
      exact ⟨here,alive⟩
    · cases found
  · cases found

theorem findBatch_parts (found : findBatch batchId depot = .ok batch) :
    depot.batches.row batchId = some batch ∧ batch.isDeleted = false := by
  unfold findBatch at found
  split at found
  · rename_i stored here
    split at found
    · cases found
    · rename_i kept
      cases found
      exact ⟨here,Bool.eq_false_iff.mpr kept⟩
  · cases found

theorem bindOrders_parts (bound : bindOrders now batchId ids refused depot = .ok next) :
    affected (unbound ids) depot.orders = ids.length ∧
      next = {depot with orders:=updateWhere now (unbound ids) (bindTo batchId) depot.orders} := by
  unfold bindOrders at bound
  split at bound
  · rename_i all
    cases bound
    exact ⟨all,rfl⟩
  · cases bound

-- The update binds every order it names, or it is refused.
theorem affected_all {orders : Table OrderRow} {ids : List Nat} (keyed : orders.Keyed)
    (all : affected (unbound ids) orders = ids.length) (id : Nat) (member : id ∈ ids) :
    ∃ row,orders.row id = some row ∧ row.order.isDeleted = false ∧ row.order.currentBatchId = none := by
  let taken := orders.filter fun entry => !entry.2.order.isDeleted && unbound ids entry.1 entry.2.order
  have nodup : (taken.map (·.1)).Nodup := List.Nodup.sublist (List.Sublist.map _ List.filter_sublist) keyed
  have inside : ∀ key ∈ taken.map (·.1),key ∈ ids := by
    intro key listed
    obtain ⟨entry,chosen,rfl⟩ := List.mem_map.mp listed
    have condition := (List.mem_filter.mp chosen).2
    simp only [unbound,Bool.and_eq_true,List.contains_iff_mem] at condition
    exact condition.2.1
  have long : ids.length ≤ (taken.map (·.1)).length := by
    rw [List.length_map]
    exact Nat.le_of_eq all.symm
  have same := (nodup.subperm inside).perm_of_length_le long
  obtain ⟨entry,chosen,here⟩ := List.mem_map.mp (same.mem_iff.mpr member)
  obtain ⟨listed,condition⟩ := List.mem_filter.mp chosen
  simp only [unbound,Bool.and_eq_true,Bool.not_eq_true',Option.isNone_iff_eq_none] at condition
  exact ⟨entry.2,here ▸ (row_exact keyed).mp listed,condition.1,condition.2.2⟩

theorem assignOrders_parts (assigned : assignOrders now batchId orders depot = .ok next) :
    affected (unbound (orders.map (·.1))) depot.orders = (orders.map (·.1)).length ∧
      (∀ entry ∈ orders,∀ item ∈ depot.items,¬(item.batchId = batchId ∧ item.orderId = entry.1)) ∧
      next = {depot with
        orders:=updateWhere now (unbound (orders.map (·.1))) (bindTo batchId) depot.orders,
        batches:=(Write.update batchId (countIn orders)).apply depot.batches,
        items:=depot.items ++ orders.map (itemOf batchId)} := by
  obtain ⟨bound,binds,rest⟩ := error_bind_parts assigned
  obtain ⟨all,rfl⟩ := bindOrders_parts binds
  split at rest
  · cases rest
  · rename_i fresh
    cases rest
    refine ⟨all,?_,rfl⟩
    intro entry listed item present both
    apply fresh
    simp only [List.any_eq_true,Bool.and_eq_true,beq_iff_eq]
    exact ⟨entry,listed,item,present,both⟩

-- What placing and assigning one group keeps, assigning them all keeps.
theorem assignGroups_keeps {place : Nat → Table OrderRow → Depot → Except RpcError (Nat × Depot)} {P : Depot → Prop}
    (groups : List (Nat × Table OrderRow)) (step : ∀ group orders current placed next,(group,orders) ∈ groups → P current →
      place group orders current = .ok placed → assignOrders now placed.1 orders placed.2 = .ok next → P next) :
    ∀ {depot next : Depot},P depot → assignGroups now place groups depot = .ok next → P next := by
  induction groups with
  | nil =>
    intro depot next holds done
    cases done
    exact holds
  | cons entry rest ih =>
    intro depot next holds done
    obtain ⟨placed,places,done⟩ := error_bind_parts done
    obtain ⟨assigned,assigns,done⟩ := error_bind_parts done
    exact ih (fun group orders current placed next member => step group orders current placed next (.tail _ member))
      (step entry.1 entry.2 depot placed assigned List.mem_cons_self holds places assigns) done

theorem saveNewBatch_parts (saved : saveNewBatch batch depot = .ok placed) :
    placed = (depot.nextBatchId,depot.insertBatch batch) ∧ depot.keyTaken batch.sourceBranchId batch.requestKey = false := by
  unfold saveNewBatch at saved
  split at saved
  · cases saved
  · rename_i free
    cases saved
    exact ⟨rfl,Bool.eq_false_iff.mpr free⟩

theorem placeInRegion_parts (placed : placeInRegion now input key pending region orders depot = .ok result) :
    (∃ batch,(result.1,batch) ∈ pending ∧ result.2 = depot) ∨
      result = (depot.nextBatchId,depot.insertBatch
        (newBatch now input.sourceBranchId input.destinationBranchId input.direction region key)) := by
  unfold placeInRegion at placed
  split at placed
  · rename_i batchId batch found
    cases placed
    exact .inl ⟨batch,List.mem_of_find?_eq_some found,rfl⟩
  · exact .inr (saveNewBatch_parts placed).1

theorem placeReturn_parts (placed : placeReturn now input key destination orders depot = .ok result) :
    (∃ batch,(result.1,batch) ∈ depot.pendingBatches input.sourceBranchId destination .back ∧ result.2 = depot) ∨
      ∃ region,result = (depot.nextBatchId,depot.insertBatch (newBatch now input.sourceBranchId destination .back region key)) := by
  unfold placeReturn at placed
  split at placed
  · cases placed
  dsimp only at placed
  split at placed
  · rename_i batchId batch found
    cases placed
    exact .inl ⟨batch,List.mem_mergeSort.mp (List.mem_of_find?_eq_some found),rfl⟩
  · exact .inr ⟨_,(saveNewBatch_parts placed).1⟩

-- The groups part the orders they are made of.
theorem groupBy_part {group : Order → Option Nat} {orders part : Table OrderRow} (member : (value,part) ∈ groupBy group orders) :
    part = orders.filter fun entry => group entry.2.order == some value := by
  obtain ⟨g,-,same⟩ := List.mem_map.mp member
  cases same
  rfl
theorem groupBy_keyed {group : Order → Option Nat} {orders : Table OrderRow} (keyed : orders.Keyed)
    (member : (value,part) ∈ groupBy group orders) : Table.Keyed part := by
  rw [groupBy_part member]
  exact List.Nodup.sublist (List.Sublist.map _ List.filter_sublist) keyed
theorem groupBy_mem {group : Order → Option Nat} {orders : Table OrderRow} (member : (value,part) ∈ groupBy group orders)
    (listed : entry ∈ part) : entry ∈ orders := by
  rw [groupBy_part member] at listed
  exact (List.mem_filter.mp listed).1

-- Both creations answer from earlier batches, or put groups of unbound live orders into pending batches.
theorem createTransfer_parts (created : createBranchTransferBatches now input depot = .ok next) : next = depot ∨
    ∃ key pending orders,(∀ entry ∈ orders,entry ∈ depot.orders ∧ live entry.2.order = true ∧ entry.2.order.status = .new) ∧
      (depot.orders.Keyed → Table.Keyed orders) ∧
      (∀ entry ∈ pending,entry ∈ depot.pendingBatches input.sourceBranchId input.destinationBranchId input.direction) ∧
      assignGroups now (placeInRegion now input key pending) (groupBy (·.regionId) orders) depot = .ok next := by
  obtain ⟨key,-,rest⟩ := error_bind_parts created
  split at rest
  · cases rest
    exact .inl rfl
  right
  dsimp only at rest
  split at rest
  · cases rest
  split at rest
  · cases rest
  split at rest
  · cases rest
  · refine ⟨key,_,_,?_,?_,?_,rest⟩
    · intro entry listed
      obtain ⟨present,chosen⟩ := List.mem_filter.mp (List.mem_mergeSort.mp listed)
      simp only [unassignedNew,Bool.and_eq_true,beq_iff_eq] at chosen
      exact ⟨present,chosen.1.1.2,chosen.1.2⟩
    · intro keyed
      exact ((List.mergeSort_perm _ _).map _).nodup_iff.mpr (select_keyed keyed _)
    · intro entry listed
      exact List.mem_mergeSort.mp listed

theorem createReturn_parts (created : createBranchReturnBatches now input depot = .ok next) : next = depot ∨
    ∃ key orders,(∀ entry ∈ orders,entry ∈ depot.orders ∧ live entry.2.order = true ∧ ineligibleReturn entry.2.order.status = false) ∧
      (depot.orders.Keyed → Table.Keyed orders) ∧
      assignGroups now (placeReturn now input key) (groupBy resolveReturnDestination orders) depot = .ok next := by
  obtain ⟨key,-,rest⟩ := error_bind_parts created
  dsimp only at rest
  split at rest
  · cases rest
  split at rest
  · cases rest
    exact .inl rfl
  split at rest
  · cases rest
  split at rest
  · cases rest
  rename_i eligible
  split at rest
  · cases rest
  split at rest
  · cases rest
  · refine .inr ⟨key,_,?_,fun keyed => select_keyed keyed _,rest⟩
    intro entry listed
    obtain ⟨present,chosen⟩ := List.mem_filter.mp listed
    simp only [Bool.and_eq_true] at chosen
    refine ⟨present,chosen.2,?_⟩
    simp only [Bool.not_eq_true',List.isEmpty_iff,List.map_eq_nil_iff,Bool.not_eq_false,
      List.filter_eq_nil_iff] at eligible
    simpa using eligible entry listed

end Elchi.Batches
