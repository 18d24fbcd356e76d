import Elchi.OrderTrails
import Elchi.WholeReceipts
namespace Elchi.Batches
open Orders RowLock

def Depot.statusOf (depot : Depot) (id : Nat) : Option OrderStatus := (depot.orders.row id).map (·.order.status)
-- An order that was not NEW becomes NEW.
def Renews (before after : Depot) (id : Nat) : Prop := after.statusOf id = some .new ∧ before.statusOf id ≠ some .new
def InBatch (depot : Depot) (batchId id : Nat) : Prop :=
  id ∈ (depot.liveItems batchId).map (·.orderId) ∨ depot.pointer id = some batchId

-- The operations that carry one batch; a receipt by ids puts the rest into batches again.
def Op.carries : Op → Option Nat
  | .send _ batchId _ _ => some batchId
  | .receive _ batchId _ => some batchId
  | .receiveOrders _ batchId _ _ => some batchId
  | .cancelBatch _ batchId _ => some batchId
  | _ => none
def OnReturn (depot : Depot) (op : Op) : Prop :=
  ∃ batchId batch,op.carries = some batchId ∧ depot.batches.row batchId = some batch ∧ batch.direction = .back
-- A whole receipt leaves the orders of the batch's region alone, and those that are NEW already.
def StaysBack (depot : Depot) (op : Op) (stop : Nat) : Prop :=
  match op with
  | .receive _ batchId _ => stop = 0 ∨ ∀ batch,depot.batches.row batchId = some batch → batch.status = .sent →
      ∀ id ∈ (depot.liveItems batchId).map (·.orderId),∀ row,depot.orders.row id = some row → live row.order = true →
        row.order.status ≠ .new → row.order.regionId = some batch.targetRegionId
  | _ => True

section Statuses
variable {depot next : Depot} {batchId : Nat} {batch : Batch} {id : Nat}

theorem statusOf_thread (depot : Depot) (id : Nat) : depot.statusOf id = (depot.thread id).order.map (·.status) := by
  rw [Depot.thread,Option.map_map]
  rfl
theorem renews_same (same : next.statusOf id = depot.statusOf id) : ¬Renews depot next id := fun renewed =>
  renewed.2 (same ▸ renewed.1)
theorem setColumns_status {now : Nat} {condition : Order → Bool} {set : Order → Order} (keeps : ∀ order,(set order).status = order.status)
    (row : OrderRow) : (setColumns now condition set row).order.status = row.order.status := by
  unfold setColumns
  split
  · exact keeps row.order
  · rfl
theorem updateWhere_status {now : Nat} {condition : Nat → Order → Bool} {set : Order → Order}
    (keeps : ∀ order,(set order).status = order.status) (orders : Table OrderRow) (id : Nat) :
    (Table.row (updateWhere now condition set orders) id).map (·.order.status) = (orders.row id).map (·.order.status) := by
  rw [updateWhere_row,Option.map_map]
  congr 1
  funext row
  exact setColumns_status keeps row

theorem receiveBatch_status (stocked : Stocked depot) (now requesterId : Nat) (id : Nat) :
    (receiveBatch now requesterId batchId batch depot).statusOf id = (depot.orders.row id).map fun row =>
      if ((depot.liveItems batchId).map (·.orderId)).contains id && live row.order then
        if row.order.regionId == some batch.targetRegionId then .received else .new
      else row.order.status := by
  rw [statusOf_thread,receiveBatch_thread stocked now requesterId batchId batch id _ (ordersIn_row stocked _ id)]
  cases here : depot.orders.row id with
  | none => rfl
  | some row =>
    simp only [Option.map_some]
    cases picks : ((depot.liveItems batchId).map (·.orderId)).contains id && live row.order with
    | false =>
      rw [Option.filter_some_neg (by exact picks)]
      simp only [Option.filter_none,Option.isSome_none,setColumns_unchosen now _ (.inl rfl),
        setColumns_unchosen now _ (unpicked stocked here picks)]
      rfl
    | true =>
      obtain ⟨listed,alive⟩ := Bool.and_eq_true_iff.mp picks
      have kept := live_kept alive
      rw [Option.filter_some_pos (by exact picks)]
      cases near : row.order.regionId == some batch.targetRegionId with
      | true =>
        simp only [Option.filter_some,near,listed,Bool.not_true,if_true,Bool.false_eq_true,if_false]
        simp [setColumns,kept,withStatus,atBranch,standing]
      | false =>
        simp only [Option.filter_some,near,listed,Bool.not_false,if_true,Bool.false_eq_true,if_false]
        simp [setColumns,kept,withStatus,atBranch,standing]

-- A whole receipt asks for the region of an order, and not for the direction of the batch.
theorem receiveBatch_renews (stocked : Stocked depot) (now requesterId : Nat) :
    Renews depot (receiveBatch now requesterId batchId batch depot) id ↔ id ∈ (depot.liveItems batchId).map (·.orderId) ∧
      ∃ row,depot.orders.row id = some row ∧ live row.order = true ∧ row.order.status ≠ .new ∧
        row.order.regionId ≠ some batch.targetRegionId := by
  unfold Renews
  rw [receiveBatch_status stocked,Depot.statusOf]
  cases here : depot.orders.row id with
  | none => simp
  | some row =>
    simp only [Option.map_some,Option.some.injEq,ne_eq,exists_eq_left']
    cases picks : ((depot.liveItems batchId).map (·.orderId)).contains id && live row.order with
    | false =>
      simp only [Bool.false_eq_true,if_false]
      refine iff_of_false (fun both => both.2 both.1) ?_
      rintro ⟨listed,alive,-⟩
      rw [alive,List.contains_iff_mem.mpr listed] at picks
      cases picks
    | true =>
      obtain ⟨listed,alive⟩ := Bool.and_eq_true_iff.mp picks
      have member : id ∈ (depot.liveItems batchId).map (·.orderId) := List.contains_iff_mem.mp listed
      simp only [if_true,alive,member,true_and]
      by_cases near : row.order.regionId = some batch.targetRegionId
      · simp [near]
      · have apart : (row.order.regionId == some batch.targetRegionId) = false := by simpa using near
        simp [apart,near]

-- Nothing else sets an order of a return batch to NEW.
theorem receiveSelected_back {selectedItems : List BatchItem} (back : batch.direction = .back) (now requesterId : Nat) :
    ¬Renews depot (receiveSelected now requesterId batchId batch selectedItems depot) id := by
  rintro ⟨after,before⟩
  unfold Depot.statusOf at after before
  dsimp only [receiveSelected] at after
  rw [updateWhere_status (by rw [back]; exact fun _ => rfl),updateWhere_row] at after
  cases here : depot.orders.row id with
  | none => rw [here] at after; cases after
  | some row =>
    rw [here,Option.map_some,Option.map_some,setColumns] at after
    split at after
    · cases after
    · rw [here] at before
      exact before after
theorem cancelBatch_back (back : batch.direction = .back) (now : Nat) : (cancelBatch now batchId batch depot).statusOf id = depot.statusOf id := by
  dsimp only [Depot.statusOf,cancelBatch]
  rw [back]
  have keeps : ∀ order,(detached false order).status = order.status := fun _ => rfl
  exact updateWhere_status keeps depot.orders id
theorem sendOrders_back {sentBatchId : Nat} {ids : List Nat} (back : batch.direction = .back) (now : Nat) :
    (sendOrders now batchId sentBatchId batch ids depot).statusOf id = depot.statusOf id := by
  dsimp only [Depot.statusOf,sendOrders]
  refine updateWhere_status (fun order => ?_) depot.orders id
  rw [sentOrder,back]
  rfl

theorem until_zero (op : Op) (depot : Depot) : op.performUntil 0 depot = depot := by
  rcases until_commits op 0 depot with same | ⟨commits,-,same⟩
  · exact same
  · exact same
theorem receive_until (stocked : Stocked depot) (stored : depot.batches.row batchId = some batch) (sent : batch.status = .sent)
    (now : Nat) (requesterId : Option Nat) (stop : Nat) (started : stop ≠ 0) :
    (Op.receive now batchId requesterId).performUntil stop depot = receiveBatch now (requesterId.getD 0) batchId batch depot := by
  obtain ⟨n,rfl⟩ := Nat.exists_eq_succ_of_ne_zero started
  rw [until_whole rfl,perform_one rfl,wholeReceipt_done stocked stored sent]
  rfl

theorem carried_keeps {op : Op} (stocked : Stocked depot) (carries : op.carries = some batchId) (stored : depot.batches.row batchId = some batch)
    (back : batch.direction = .back) (stop : Nat) (stays : StaysBack depot op stop) (id : Nat) :
    ¬Renews depot (op.performUntil stop depot) id := by
  have still : ¬Renews depot depot id := renews_same rfl
  have present : depot.batches.row batchId ≠ none := by rw [stored]; exact Option.some_ne_none batch
  cases op with
  | send now key random input =>
    cases carries
    refine front_keeps (P:=fun next => ¬Renews depot next id) stop still fun commits done => ?_
    obtain ⟨found,there,-,-,sent⟩ := sendBranch_parts done
    cases stored.symm.trans there
    obtain ⟨toMark,-,base,sentBatchId,readied,reached⟩ := send_until stocked present (stocked.kept batchId batch stored) sent stop
    have before : base.statusOf id = depot.statusOf id := by rw [Depot.statusOf,readied.orders]; rfl
    rw [reached]
    refine renews_same ?_
    split
    · exact before
    · exact (sendOrders_back back now).trans before
  | receive now key requesterId =>
    cases carries
    rcases stays with rfl | near
    · rw [until_zero]
      exact still
    refine until_keeps (P:=fun next => ¬Renews depot next id) rfl stop still fun next done => ?_
    obtain ⟨found,there,sent,rfl⟩ := receive_parts done
    cases stored.symm.trans there
    intro renewed
    obtain ⟨listed,row,here,alive,old,apart⟩ := (receiveBatch_renews stocked now _).mp renewed
    exact apart (near batch stored sent id listed row here alive old)
  | receiveOrders now key orderIds requesterId =>
    cases carries
    refine front_keeps (P:=fun next => ¬Renews depot next id) stop still fun commits done => ?_
    obtain ⟨found,selectedItems,remaining,there,-,-,rfl⟩ := receiveOrders_parts done
    cases stored.symm.trans there
    have received : ¬Renews depot (receiveSelected now (requesterId.getD 0) batchId batch selectedItems depot) id :=
      receiveSelected_back back now _
    match stop with
    | 0 => exact still
    | 1 => exact received
    | n+2 =>
      simp only [List.take_succ_cons,List.take_nil]
      -- the rest goes into batches again, and no order of it changes
      refine orKeep_keeps (P:=fun next => ¬Renews depot next id) received fun next again => ?_
      intro renewed
      refine received ⟨?_,renewed.2⟩
      rw [statusOf_thread,←rebatch_thread again id,←statusOf_thread]
      exact renewed.1
  | cancelBatch now key reason =>
    cases carries
    refine until_keeps (P:=fun next => ¬Renews depot next id) rfl stop still fun next done => ?_
    obtain ⟨found,there,-,-,rfl⟩ := cancel_parts done
    cases stored.symm.trans there
    exact renews_same (cancelBatch_back back now)
  | _ => cases carries

-- On a return batch one operation sets no order to NEW exactly when it stays back.
theorem carried_exact {op : Op} (stocked : Stocked depot) (carries : op.carries = some batchId) (stored : depot.batches.row batchId = some batch)
    (back : batch.direction = .back) (stop : Nat) :
    (∀ id,InBatch depot batchId id → ¬Renews depot (op.performUntil stop depot) id) ↔ StaysBack depot op stop := by
  refine ⟨fun none => ?_,fun stays id _ => carried_keeps stocked carries stored back stop stays id⟩
  cases op with
  | receive now key requesterId =>
    cases carries
    by_cases started : stop = 0
    · exact .inl started
    refine .inr fun found there sent id listed row here alive old => ?_
    cases stored.symm.trans there
    by_contra apart
    refine none id (.inl listed) ?_
    rw [receive_until stocked stored sent now requesterId stop started]
    exact (receiveBatch_renews stocked now _).mpr ⟨listed,row,here,alive,old,apart⟩
  | _ => trivial
end Statuses

theorem returning_orders {depot : Depot} (stocked : Stocked depot) :
    (∀ op batchId batch,op.carries = some batchId → depot.batches.row batchId = some batch → batch.direction = .back → ∀ stop,
      (∀ id,InBatch depot batchId id → ¬Renews depot (op.performUntil stop depot) id) ↔ StaysBack depot op stop) ∧
    ∀ steps,MeetsUntil (fun current op stop => OnReturn current op ∧ StaysBack current op stop) depot steps →
      ∀ front,front <+: steps → ∀ id,¬Renews depot (performUntilAll depot front) id := by
  refine ⟨fun op batchId batch carries stored back stop => carried_exact stocked carries stored back stop,fun steps meets front reached => ?_⟩
  have held : Stocked (performUntilAll depot front) ∧ ∀ id,¬Renews depot (performUntilAll depot front) id := by
    apply Runs.run_keeps_reached (P:=fun current => Stocked current ∧ ∀ id,¬Renews depot current id) ?_ ⟨stocked,fun _ => renews_same rfl⟩
      meets reached
    rintro current ⟨op,stop⟩ ⟨stocked,none⟩ ⟨⟨batchId,batch,carries,stored,back⟩,stays⟩
    refine ⟨until_stocked stocked op stop,fun id renewed => ?_⟩
    by_cases before : current.statusOf id = some .new
    · exact none id ⟨before,renewed.2⟩
    · exact carried_keeps stocked carries stored back stop stays id ⟨renewed.1,before⟩
  exact held.2

-- The return batch is cancelled on its way; or received as a whole, with its order of another region.
def backAndForth : List (Op × Nat) := [(.cancelBatch 12 1 "no truck left today",1)]
theorem returning_orders_cancelled : ¬Renews returning (performUntilAll returning backAndForth) 2 := by
  have onReturn : (returning.batches.row 1).map (·.direction) = some .back := by decide
  obtain ⟨batch,stored,back⟩ := Option.map_eq_some_iff.mp onReturn
  exact (returning_orders returning_stocked).2 backAndForth ⟨⟨⟨1,batch,rfl,stored,back⟩,trivial⟩,trivial⟩ backAndForth
    (List.prefix_refl _) 2
theorem returning_renewed : Stocked returning ∧ (returning.batches.row 1).map (·.direction) = some .back ∧ InBatch returning 1 2 ∧
    returning.statusOf 2 = some .cancelled ∧ Renews returning ((Op.receive 12 1 (some 9)).performUntil 1 returning) 2 := by
  have member : 2 ∈ (returning.liveItems 1).map (·.orderId) := by decide
  have before : returning.statusOf 2 = some .cancelled := by decide
  have after : ((Op.receive 12 1 (some 9)).performUntil 1 returning).statusOf 2 = some .new := by decide
  refine ⟨returning_stocked,by decide,.inl member,before,after,?_⟩
  rw [before]
  decide

end Elchi.Batches
