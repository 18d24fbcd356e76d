import Elchi.SoloRuns
import Elchi.OrderPlans
namespace Elchi.Orders
open RowLock

abbrev OrderStore := Store OrderRow OrderEvent
-- A request of the order service that ran alone and answered with success.
def Performs (request : Request) (store final : OrderStore) : Prop := ∃ answer,request.perform store = (some (.ok answer),final)

theorem failed_performs {error : RpcError} (performed : Performs (fail error) store final) : False := by
  obtain ⟨answer,same⟩ := performed
  cases same

section Requests
variable {store final : OrderStore} {id : Nat}

theorem findById_performs {next : OrderRow → Request} (keyed : store.table.Keyed) (performed : Performs (findById id next) store final) :
    ∃ row,store.table.row id = some row ∧ Performs (next row) store final := by
  obtain ⟨answer,same⟩ := performed
  simp only [findById,perform_find] at same
  split at same
  · rename_i key row rest selected
    have member : (key,row) ∈ store.table.select (liveOrder id) := by simp [selected]
    obtain ⟨stored,live⟩ := select_row keyed member
    simp only [liveOrder,Bool.and_eq_true,beq_iff_eq] at live
    exact ⟨row,live.1.1 ▸ stored,answer,same⟩
  · exact (failed_performs ⟨answer,same⟩).elim

theorem lock_performs {next : Option (Nat × OrderRow × List OrderEvent) → Request} (keyed : store.table.Keyed)
    (missing : ∀ final,¬Performs (next none) store final) (performed : Performs (.lock (storedOrder id) next) store final) :
    ∃ row events,store.table.row id = some row ∧ Performs (next (some (id,row,events))) store final := by
  obtain ⟨answer,same⟩ := performed
  simp only [perform_lock] at same
  split at same
  · exact (missing final ⟨answer,same⟩).elim
  · rename_i key row rest selected
    have member : (key,row) ∈ store.table.select (storedOrder id) := by simp [selected]
    obtain ⟨stored,chosen⟩ := select_row keyed member
    cases storedOrder_key chosen
    exact ⟨row,_,stored,answer,same⟩

theorem lockWaitingOrder_performs {next : Request} (keyed : store.table.Keyed) (performed : Performs (lockWaitingOrder id next) store final) :
    Performs next store final := by
  obtain ⟨row,events,-,performed⟩ := lock_performs keyed (fun _ impossible => failed_performs impossible) performed
  dsimp only at performed
  split at performed
  · exact performed
  · exact (failed_performs performed).elim

theorem lockUnchanged_performs {next : Request} (keyed : store.table.Keyed)
    (performed : Performs (lockUnchanged id status next) store final) : Performs next store final := by
  obtain ⟨row,events,-,performed⟩ := lock_performs keyed (fun _ impossible => failed_performs impossible) performed
  dsimp only at performed
  split at performed
  · exact performed
  · exact (failed_performs performed).elim

theorem updateWithin_performs {next : Order → List OrderEvent → Request} (keyed : store.table.Keyed)
    (here : store.table.row id = some row) (performed : Performs (updateWithin lookups requester id dto next) store final) :
    ∃ updated,updateOrder lookups (some requester.id) dto row.order = .ok updated ∧
      Performs (next updated (statusEvents id row.order updated)) store final := by
  obtain ⟨found,stored,performed⟩ := findById_performs keyed performed
  cases here.symm.trans stored
  split at performed
  · exact (failed_performs performed).elim
  · rename_i updated passed
    exact ⟨updated,passed,performed⟩

theorem commit_performs {note : Note} {writes : List (Write OrderRow)} {entries : Journal OrderEvent}
    (performed : Performs (.commit note writes entries (.done (.ok answer))) store final) :
    final.table = applyWrites store.table writes ∧ final.journal = store.journal ++ entries := by
  obtain ⟨answer,same⟩ := performed
  simp only [perform_commit] at same
  split at same
  · cases same
    exact ⟨rfl,rfl⟩
  · cases same

theorem fromWaiting_performs {P : Type} {plan : OrderRow → Except RpcError P} {update : P → UpdateDto}
    {next : OrderRow → P → Order → List OrderEvent → Request} (keyed : store.table.Keyed)
    (performed : Performs (fromWaiting lookups requester id plan update next) store final) :
    ∃ row planned updated,store.table.row id = some row ∧ plan row = .ok planned ∧
      updateOrder lookups (some requester.id) (update planned) row.order = .ok updated ∧
      Performs (next row planned updated (statusEvents id row.order updated)) store final := by
  obtain ⟨row,here,performed⟩ := findById_performs keyed performed
  split at performed
  · exact (failed_performs performed).elim
  rename_i planned isPlanned
  obtain ⟨updated,passed,performed⟩ := updateWithin_performs keyed here (lockWaitingOrder_performs keyed performed)
  exact ⟨row,planned,updated,here,isPlanned,passed,performed⟩

theorem sellOrder_performs (keyed : store.table.Keyed) (performed : Performs (sellOrder lookups requester id dto requestId) store final) :
    ∃ row plan updated,store.table.row id = some row ∧ sellPlan lookups requester id row.order dto requestId = .ok plan ∧
      updateOrder lookups (some requester.id) plan.update row.order = .ok updated ∧
      final.table = applyWrites store.table [.update id (soldRow lookups.now updated plan.settlement)] ∧
      final.journal = store.journal ++ (plan.events ++ statusEvents id row.order updated).map (id,·) := by
  rw [sellOrder_shape] at performed
  obtain ⟨row,plan,updated,here,planned,passed,performed⟩ := fromWaiting_performs keyed performed
  exact ⟨row,plan,updated,here,planned,passed,commit_performs performed⟩

theorem partlySellOrder_performs (keyed : store.table.Keyed)
    (performed : Performs (partlySellOrder lookups requester id dto requestId token) store final) :
    ∃ row plan updated,store.table.row id = some row ∧ partlySellPlan lookups requester id row dto requestId token = .ok plan ∧
      updateOrder lookups (some requester.id) plan.update row.order = .ok updated ∧
      final.table = applyWrites store.table
        [.update id (partlySoldRow lookups.now updated plan),.insert store.nextId ⟨plan.child,plan.childItems,none⟩] ∧
      final.journal = store.journal ++ (plan.events ++ statusEvents id row.order updated).map (id,·) := by
  rw [partlySellOrder_shape] at performed
  obtain ⟨row,plan,updated,here,planned,passed,answer,performed⟩ := fromWaiting_performs keyed performed
  rw [perform_fresh] at performed
  have committed := commit_performs ⟨answer,performed⟩
  exact ⟨row,plan,updated,here,planned,passed,committed⟩

theorem cancelOrder_performs (keyed : store.table.Keyed) (performed : Performs (cancelOrder lookups requester id dto requestId) store final) :
    ∃ row plan updated,store.table.row id = some row ∧ cancelPlan lookups requester id row.order dto requestId = .ok plan ∧
      updateOrder lookups (some requester.id) plan.update row.order = .ok updated ∧
      final.table = applyWrites store.table [.update id (saveRow lookups.now updated)] := by
  rw [cancelOrder_shape] at performed
  obtain ⟨row,plan,updated,here,planned,passed,performed⟩ := fromWaiting_performs keyed performed
  exact ⟨row,plan,updated,here,planned,passed,(commit_performs performed).1⟩

theorem updateFull_performs (keyed : store.table.Keyed) (plain : dto.items = none)
    (performed : Performs (updateFull lookups requesterId id dto) store final) :
    ∃ row updated,store.table.row id = some row ∧ updateOrder lookups requesterId dto row.order = .ok updated ∧
      final.table = applyWrites store.table [.update id (saveRow lookups.now updated)] := by
  obtain ⟨row,here,performed⟩ := findById_performs keyed performed
  split at performed
  · exact (failed_performs performed).elim
  rename_i updated edited
  rw [plain] at performed
  exact ⟨row,updated,here,editOrder_parts edited,(commit_performs performed).1⟩

theorem markByProvider_performs (keyed : store.table.Keyed) (performed : Performs (markByProvider now id action) store final) :
    ∃ row,store.table.row id = some row ∧ (action.alreadyApplied row.order.status = true ∧ final = store ∨
      final.table = applyWrites store.table [.update id (saveRow now (providerOrder now action row.order))] ∧
        final.journal = store.journal) := by
  obtain ⟨row,here,performed⟩ := findById_performs keyed performed
  refine ⟨row,here,?_⟩
  split at performed
  · rename_i applied
    obtain ⟨answer,same⟩ := performed
    cases same
    exact .inl ⟨applied,rfl⟩
  · right
    obtain ⟨table,journal⟩ := commit_performs performed
    exact ⟨table,by simpa using journal⟩

theorem rollback_performs (keyed : store.table.Keyed)
    (performed : Performs (rollbackOrderToWaiting lookups requester id targetStatus requestId) store final) :
    ∃ row target plan updated items,store.table.row id = some row ∧ rollbackTarget targetStatus = .ok target ∧
      checkRollback requester row.order target = .ok () ∧
      cascadeItems (mergeItems (byCreation (store.table.select (partialChild id))) row.items) row.items = .ok items ∧
      rollbackPlan lookups requester id row.order target requestId = .ok plan ∧
      updateOrder lookups (some requester.id) plan.update row.order = .ok updated ∧
      final.table = applyWrites store.table
        (rollbackWrites lookups.now id (byCreation (store.table.select (partialChild id))) row.order items updated) ∧
      final.journal = store.journal ++ (plan.events ++ statusEvents id row.order updated).map (id,·) := by
  unfold rollbackOrderToWaiting at performed
  split at performed
  · exact (failed_performs performed).elim
  rename_i target aimed
  obtain ⟨row,here,performed⟩ := findById_performs keyed performed
  split at performed
  · exact (failed_performs performed).elim
  rename_i allowed
  obtain ⟨answer,performed⟩ := performed
  rw [perform_find] at performed
  split at performed
  · exact (failed_performs ⟨answer,performed⟩).elim
  split at performed
  · exact (failed_performs ⟨answer,performed⟩).elim
  rename_i plan planned
  obtain ⟨answer,performed⟩ := lockUnchanged_performs keyed ⟨answer,performed⟩
  rw [perform_find] at performed
  split at performed
  · exact (failed_performs ⟨answer,performed⟩).elim
  rename_i items cascaded
  obtain ⟨updated,passed,performed⟩ := updateWithin_performs keyed here ⟨answer,performed⟩
  exact ⟨row,target,plan,updated,items,here,aimed,allowed,cascaded,planned,passed,commit_performs performed⟩

end Requests

-- A request that is not answered with success has written nothing.
def Atomic (request : Request) : Prop := ∀ store : OrderStore,
  (request.perform store).2.table = store.table ∨ ∃ answer,(request.perform store).1 = some (.ok answer)

section Atomic
variable {id : Nat}

theorem fail_atomic (error : RpcError) : Atomic (fail error) := fun _ => .inl rfl

theorem findById_atomic {next : OrderRow → Request} (each : ∀ row,Atomic (next row)) : Atomic (findById id next) := by
  intro store
  simp only [findById,perform_find]
  split
  · exact each _ store
  · exact fail_atomic _ store

theorem find_atomic {sel : Nat → OrderRow → Bool} {next : Table OrderRow → Request} (each : ∀ rows,Atomic (next rows)) :
    Atomic (.find sel next) := fun store => each _ store

theorem fresh_atomic {next : Nat → Request} (each : ∀ key,Atomic (next key)) : Atomic (.fresh next) :=
  fun store => each store.nextId {store with nextId:=store.nextId+1}

theorem lock_atomic {next : Option (Nat × OrderRow × List OrderEvent) → Request} (each : ∀ found,Atomic (next found)) :
    Atomic (.lock sel next) := by
  intro store
  simp only [perform_lock]
  split
  · exact each _ store
  · exact each _ store

theorem lockWaitingOrder_atomic {next : Request} (each : Atomic next) : Atomic (lockWaitingOrder id next) := by
  apply lock_atomic
  intro found
  split
  · split
    · exact each
    · exact fail_atomic _
  · exact fail_atomic _

theorem lockUnchanged_atomic {next : Request} (each : Atomic next) : Atomic (lockUnchanged id status next) := by
  apply lock_atomic
  intro found
  split
  · split
    · exact each
    · exact fail_atomic _
  · exact fail_atomic _

theorem updateWithin_atomic {next : Order → List OrderEvent → Request} (each : ∀ updated events,Atomic (next updated events)) :
    Atomic (updateWithin lookups requester id dto next) := by
  apply findById_atomic
  intro row
  split
  · exact fail_atomic _
  · exact each _ _

theorem commit_atomic (note : Note) (writes : List (Write OrderRow)) (entries : Journal OrderEvent) (answer : Answer) :
    Atomic (.commit note writes entries (.done (.ok answer))) := by
  intro store
  simp only [perform_commit]
  split
  · exact .inr ⟨answer,rfl⟩
  · exact .inl rfl

theorem fromWaiting_atomic {P : Type} {plan : OrderRow → Except RpcError P} {update : P → UpdateDto}
    {next : OrderRow → P → Order → List OrderEvent → Request} (each : ∀ row planned updated events,Atomic (next row planned updated events)) :
    Atomic (fromWaiting lookups requester id plan update next) := by
  apply findById_atomic
  intro row
  split
  · exact fail_atomic _
  · exact lockWaitingOrder_atomic (updateWithin_atomic fun _ _ => each _ _ _ _)

theorem sellOrder_atomic (lookups : Lookups) (requester : Requester) (id : Nat) (dto : SellDto) (requestId : Option String) :
    Atomic (sellOrder lookups requester id dto requestId) := by
  rw [sellOrder_shape]
  exact fromWaiting_atomic fun _ _ _ _ => commit_atomic _ _ _ _

theorem cancelOrder_atomic (lookups : Lookups) (requester : Requester) (id : Nat) (dto : SellDto) (requestId : Option String) :
    Atomic (cancelOrder lookups requester id dto requestId) := by
  rw [cancelOrder_shape]
  exact fromWaiting_atomic fun _ _ _ _ => commit_atomic _ _ _ _

theorem partlySellOrder_atomic (lookups : Lookups) (requester : Requester) (id : Nat) (dto : PartlySellDto) (requestId : Option String)
    (qrCodeToken : String) : Atomic (partlySellOrder lookups requester id dto requestId qrCodeToken) := by
  rw [partlySellOrder_shape]
  exact fromWaiting_atomic fun _ _ _ _ => fresh_atomic fun _ => commit_atomic _ _ _ _

theorem rollback_atomic (lookups : Lookups) (requester : Requester) (id : Nat) (targetStatus requestId : Option String) :
    Atomic (rollbackOrderToWaiting lookups requester id targetStatus requestId) := by
  unfold rollbackOrderToWaiting
  split
  · exact fail_atomic _
  apply findById_atomic
  intro row
  split
  · exact fail_atomic _
  apply find_atomic
  intro current
  split
  · exact fail_atomic _
  split
  · exact fail_atomic _
  apply lockUnchanged_atomic
  apply find_atomic
  intro children
  split
  · exact fail_atomic _
  · exact updateWithin_atomic fun _ _ => commit_atomic _ _ _ _

theorem updateFull_atomic (lookups : Lookups) (requesterId : Option Nat) (id : Nat) {dto : UpdateDto} (plain : dto.items = none) :
    Atomic (updateFull lookups requesterId id dto) := by
  apply findById_atomic
  intro row
  split
  · exact fail_atomic _
  · rw [plain]
    exact commit_atomic _ _ _ _

theorem settles_atomic {call : Call} (settles : call.settles = true) : Atomic call.request := by
  cases call with
  | sell lookups requester id dto requestId => exact sellOrder_atomic lookups requester id dto requestId
  | partlySell lookups requester id dto requestId token => exact partlySellOrder_atomic lookups requester id dto requestId token
  | cancel lookups requester id dto requestId => exact cancelOrder_atomic lookups requester id dto requestId
  | rollback lookups requester id target requestId => exact rollback_atomic lookups requester id target requestId
  | _ => cases settles

end Atomic

end Elchi.Orders
