import Elchi.LockedRuns
import Elchi.OrderWriters
namespace Elchi.Orders
open RowLock

def Locks (held : List (Held OrderRow OrderEvent)) (id : Nat) (row : OrderRow) : Prop := ∃ h ∈ held,h.key = id ∧ h.row = some row

def soldRow (now : Nat) (updated : Order) (settlement : OrderSettlement) (stored : OrderRow) : OrderRow :=
  {saveRow now updated stored with settlement:=some settlement}
def partlySoldRow (now : Nat) (updated : Order) (plan : PartlySalePlan) (stored : OrderRow) : OrderRow :=
  {order:={saveOrder now updated stored.order with productQuantity:=plan.soldQuantity},items:=plan.soldItems,
   settlement:=some plan.settlement}
def updateEntity (dto : UpdateDto) (updated : Order) : Order :=
  {updated with productQuantity:=(dto.items.map itemsQuantity).getD updated.productQuantity}

-- Every transaction the order service commits: what it was computed from, what it holds
-- locked, and what it writes and enqueues.
inductive Transaction (held : List (Held OrderRow OrderEvent)) : Note → List (Write OrderRow) → Journal OrderEvent → Prop where
  | sell {id : Nat} (planned : sellPlan lookups requester id loaded dto requestId = .ok plan) (locked : Locks held id stored)
      (waiting : stored.order.status = .waiting) (passed : updateOrder lookups (some requester.id) plan.update stored.order = .ok updated) :
      Transaction held {call:=.sell lookups requester id dto requestId,loaded:=some loaded}
        [.update id (soldRow lookups.now updated plan.settlement)]
        ((plan.events ++ statusEvents id stored.order updated).map (id,·))
  | partlySell {id : Nat} (planned : partlySellPlan lookups requester id ⟨loaded,items,settlement⟩ dto requestId qrCodeToken = .ok plan)
      (locked : Locks held id stored) (waiting : stored.order.status = .waiting)
      (passed : updateOrder lookups (some requester.id) plan.update stored.order = .ok updated) (childApart : childId ≠ id)
      (childNew : ∃ h ∈ held,h.key = childId ∧ h.row = none) :
      Transaction held {call:=.partlySell lookups requester id dto requestId qrCodeToken,loaded:=some loaded}
        [.update id (partlySoldRow lookups.now updated plan),.insert childId ⟨plan.child,plan.childItems,none⟩]
        ((plan.events ++ statusEvents id stored.order updated).map (id,·))
  | cancel {id : Nat} (planned : cancelPlan lookups requester id loaded dto requestId = .ok plan) (locked : Locks held id stored)
      (waiting : stored.order.status = .waiting) (passed : updateOrder lookups (some requester.id) plan.update stored.order = .ok updated) :
      Transaction held {call:=.cancel lookups requester id dto requestId,loaded:=some loaded}
        [.update id (saveRow lookups.now updated)]
        ((plan.extra.map OrderEvent.balance ++ plan.record ++ statusEvents id stored.order updated).map (id,·))
  | rollback {id : Nat} (target : rollbackTarget targetStatus = .ok aim) (allowed : checkRollback requester loaded aim = .ok ())
      (planned : rollbackPlan lookups requester id loaded aim requestId = .ok plan) (locked : Locks held id stored)
      (unchanged : stored.order.status = loaded.status)
      (passed : updateOrder lookups (some requester.id) plan.update stored.order = .ok updated)
      (merged : ∀ child ∈ children,partialChild id child.1 child.2 = true) :
      Transaction held {call:=.rollback lookups requester id targetStatus requestId,loaded:=some loaded,children:=children}
        (rollbackWrites lookups.now id children loaded items updated)
        ((plan.events ++ statusEvents id stored.order updated).map (id,·))
  | items {id : Nat} (edit : List OrderItem → List OrderItem) :
      Transaction held {call:=.update lookups requesterId id dto} [.update id fun stored => {stored with items:=edit stored.items}] []
  | update {id : Nat} (passed : updateOrder lookups requesterId dto loaded = .ok updated) :
      Transaction held {call:=.update lookups requesterId id dto,loaded:=some loaded}
        [.update id (saveRow lookups.now (updateEntity dto updated))]
        ((statusEvents id loaded (updateEntity dto updated)).map (id,·))
  | provider {id : Nat} (applies : action.alreadyApplied loaded.status = false) :
      Transaction held {call:=.provider now id action,loaded:=some loaded}
        [.update id (saveRow now (providerOrder now action loaded))] []
  | sendBatch : Transaction held {call:=.sendBatch now batch sentBatchId orderIds}
      (setWhere now orderIds (fun order => order.currentBatchId == some batch.id) fun order =>
        {order with currentBatchId:=some sentBatchId,status:=if batch.forward then .onTheRoad else order.status}) []
  | receiveBatch (localIn : ∀ id ∈ localOrderIds,id ∈ orderIds) (transitIn : ∀ id ∈ transitOrderIds,id ∈ orderIds) :
      Transaction held {call:=.receiveBatch now requesterId batch orderIds}
        (setWhere now orderIds anyOrder (atBranch now requesterId batch.destinationBranchId) ++
          (setWhere now localOrderIds anyOrder (withStatus .received) ++ setWhere now transitOrderIds anyOrder (withStatus .new))) []
  | receiveBatchOrders : Transaction held {call:=.receiveBatchOrders now requesterId batch selected remaining}
      (setWhere now selected anyOrder (fun order => withStatus .received (atBranch now requesterId batch.destinationBranchId order)) ++
        setWhere now remaining anyOrder (detached batch.forward)) []
  | cancelBatch (requeued : requeue = true → batch.forward = true) : Transaction held {call:=.cancelBatch now batch}
      (setWhere now matched (fun order => order.currentBatchId == some batch.id) (detached requeue)) []

-- No invariant is needed of the rows; a request commits its own transactions only, and none
-- when it fails.
def AnyRow (_key : Nat) (_row : OrderRow) (_events : List OrderEvent) : Prop := True
def Makes (call : Call) : Guarantee OrderRow OrderEvent Note := fun held made note writes entries =>
  note.call = call ∧ (call.settles = true → made = []) ∧ Transaction held note writes entries
def Answers : Reply Note (Except RpcError Answer) := fun notes answer => ∀ error,answer = .error error → notes = []

section Requests
variable {G : Guarantee OrderRow OrderEvent Note} {A : Reply Note (Except RpcError Answer)} {id : Nat}
  {held : List (Held OrderRow OrderEvent)} {notes : List Note}

theorem findById_safe {next : OrderRow → Request} (missing : ∀ error,A notes (.error error))
    (found : ∀ row,(∀ h ∈ held,h.key = id → h.row = some row) → Safe AnyRow G A (next row) held notes) :
    Safe AnyRow G A (findById id next) held notes := by
  intro table keyed sees
  dsimp only
  split
  · rename_i key row rest selected
    have member : (key,row) ∈ table.select (liveOrder id) := by simp [selected]
    obtain ⟨stored,live⟩ := select_row keyed member
    have same : key = id := by
      simp only [liveOrder,Bool.and_eq_true,beq_iff_eq] at live
      exact live.1.1
    apply found
    intro h inHeld here
    rw [←sees h inHeld,here,←same,stored]
  · exact missing _

theorem storedOrder_key {row : OrderRow} (selected : storedOrder id key row = true) : key = id := by
  simp only [storedOrder,Bool.and_eq_true,beq_iff_eq] at selected
  exact selected.1

theorem lockWaitingOrder_safe {next : Request} (failed : ∀ error,A notes (.error error))
    (locked : ∀ row events,row.order.status = .waiting → Safe AnyRow G A next (⟨id,some row,events⟩ :: held) notes) :
    Safe AnyRow G A (lockWaitingOrder id next) held notes := by
  refine ⟨failed _,?_⟩
  intro key row events selected _ _
  cases storedOrder_key selected
  dsimp only
  split
  · rename_i waiting
    exact locked row events waiting
  · exact failed _

theorem lockUnchanged_safe {next : Request} (failed : ∀ error,A notes (.error error))
    (locked : ∀ row events,row.order.status = status → Safe AnyRow G A next (⟨id,some row,events⟩ :: held) notes) :
    Safe AnyRow G A (lockUnchanged id status next) held notes := by
  refine ⟨failed _,?_⟩
  intro key row events selected _ _
  cases storedOrder_key selected
  dsimp only
  split
  · rename_i unchanged
    exact locked row events unchanged
  · exact failed _

-- updateFull inside the transaction reads the row that is locked.
theorem updateWithin_safe {next : Order → List OrderEvent → Request} (failed : ∀ error,A notes (.error error))
    (locked : ∃ h ∈ held,h.key = id ∧ h.row = some stored)
    (passed : ∀ updated,updateOrder lookups (some requester.id) dto stored.order = .ok updated →
      Safe AnyRow G A (next updated (statusEvents id stored.order updated)) held notes) :
    Safe AnyRow G A (updateWithin lookups requester id dto next) held notes := by
  apply findById_safe failed
  intro row agrees
  obtain ⟨h,inHeld,here,shown⟩ := locked
  have same : row = stored := Option.some.inj ((agrees h inHeld here).symm.trans shown)
  subst same
  split
  · exact failed _
  · rename_i updated ok
    exact passed updated ok

-- A transaction of the catalogue, with its rows and events under keys it holds or writes.
theorem transaction_safe {note : Note} {writes : List (Write OrderRow)} {entries : Journal OrderEvent} {next : Request}
    (inserts : ∀ key value,.insert key value ∈ writes → ∃ h ∈ held,h.key = key)
    (covered : ∀ entry ∈ entries,∃ write ∈ writes,write.key = entry.1) (made : G held notes note writes entries)
    (continues : Safe AnyRow G A next [] (notes ++ [note])) :
    Safe AnyRow G A (.commit note writes entries next) held notes :=
  commit_anything inserts covered made continues

theorem own_events {writes : List (Write OrderRow)} (events : List OrderEvent) (own : ∃ write ∈ writes,write.key = id) :
    ∀ entry ∈ events.map (id,·),∃ write ∈ writes,write.key = entry.1 := by
  intro entry member
  obtain ⟨event,-,rfl⟩ := List.mem_map.mp member
  exact own

end Requests

theorem success_answers (notes : List Note) : Answers notes (.ok answer) := fun _ impossible => by cases impossible
theorem failure_answers (error : RpcError) : Answers [] (.error error) := fun _ _ => rfl

-- The requests on a WAITING order share their way to the commit: read the order, plan, lock it and
-- update it.
def fromWaiting {P : Type} (lookups : Lookups) (requester : Requester) (id : Nat) (plan : OrderRow → Except RpcError P)
    (update : P → UpdateDto) (next : OrderRow → P → Order → List OrderEvent → Request) : Request :=
  findById id fun row => match plan row with
  | .error error => fail error
  | .ok planned => lockWaitingOrder id <| updateWithin lookups requester id (update planned) (next row planned)

theorem sellOrder_shape (lookups : Lookups) (requester : Requester) (id : Nat) (dto : SellDto) (requestId : Option String) :
    sellOrder lookups requester id dto requestId =
      fromWaiting lookups requester id (fun row => sellPlan lookups requester id row.order dto requestId) (·.update) fun row plan updated events =>
        .commit {call:=.sell lookups requester id dto requestId,loaded:=some row.order}
          [.update id (soldRow lookups.now updated plan.settlement)] ((plan.events ++ events).map (id,·)) (success 200 "Order sold") := by
  refine congrArg (findById id) (funext fun row => ?_)
  dsimp only
  cases sellPlan lookups requester id row.order dto requestId with
  | error error => rfl
  | ok plan => rfl

theorem cancelOrder_shape (lookups : Lookups) (requester : Requester) (id : Nat) (dto : SellDto) (requestId : Option String) :
    cancelOrder lookups requester id dto requestId =
      fromWaiting lookups requester id (fun row => cancelPlan lookups requester id row.order dto requestId) (·.update) fun row plan updated events =>
        .commit {call:=.cancel lookups requester id dto requestId,loaded:=some row.order} [.update id (saveRow lookups.now updated)]
          ((plan.extra.map OrderEvent.balance ++ plan.record ++ events).map (id,·)) (success 200 "Order canceled") := by
  refine congrArg (findById id) (funext fun row => ?_)
  dsimp only
  cases cancelPlan lookups requester id row.order dto requestId with
  | error error => rfl
  | ok plan => rfl

theorem partlySellOrder_shape (lookups : Lookups) (requester : Requester) (id : Nat) (dto : PartlySellDto) (requestId : Option String)
    (qrCodeToken : String) : partlySellOrder lookups requester id dto requestId qrCodeToken =
      fromWaiting lookups requester id (fun row => partlySellPlan lookups requester id row dto requestId qrCodeToken) (·.update)
        fun row plan updated events => .fresh fun childId =>
          .commit {call:=.partlySell lookups requester id dto requestId qrCodeToken,loaded:=some row.order}
            [.update id (partlySoldRow lookups.now updated plan),.insert childId ⟨plan.child,plan.childItems,none⟩]
            ((plan.events ++ events).map (id,·)) (success 200 "Order qisman sotildi") := by
  refine congrArg (findById id) (funext fun row => ?_)
  dsimp only
  cases partlySellPlan lookups requester id row dto requestId qrCodeToken with
  | error error => rfl
  | ok plan => rfl

theorem fromWaiting_safe {P : Type} {plan : OrderRow → Except RpcError P} {update : P → UpdateDto} {id : Nat}
    {next : OrderRow → P → Order → List OrderEvent → Request}
    (each : ∀ loaded planned stored events updated,plan loaded = .ok planned → stored.order.status = .waiting →
      Locks [⟨id,some stored,events⟩] id stored → updateOrder lookups (some requester.id) (update planned) stored.order = .ok updated →
      Safe AnyRow G Answers (next loaded planned updated (statusEvents id stored.order updated)) [⟨id,some stored,events⟩] []) :
    Safe AnyRow G Answers (fromWaiting lookups requester id plan update next) [] [] := by
  apply findById_safe failure_answers
  intro loaded _
  split
  · exact failure_answers _
  · rename_i planned isPlanned
    apply lockWaitingOrder_safe failure_answers
    intro stored events waiting
    have locked : Locks [⟨id,some stored,events⟩] id stored := ⟨_,List.mem_singleton.mpr rfl,rfl,rfl⟩
    apply updateWithin_safe failure_answers locked
    intro updated passed
    exact each loaded planned stored events updated isPlanned waiting locked passed

theorem sellOrder_safe (lookups : Lookups) (requester : Requester) (id : Nat) (dto : SellDto) (requestId : Option String) :
    Safe AnyRow (Makes (.sell lookups requester id dto requestId)) Answers (sellOrder lookups requester id dto requestId) [] [] := by
  rw [sellOrder_shape]
  apply fromWaiting_safe
  intro loaded plan stored events updated planned waiting locked passed
  apply transaction_safe (by simp) (own_events _ ⟨_,List.mem_cons_self,rfl⟩) ⟨rfl,fun _ => rfl,.sell planned locked waiting passed⟩
  exact success_answers _

theorem cancelOrder_safe (lookups : Lookups) (requester : Requester) (id : Nat) (dto : SellDto) (requestId : Option String) :
    Safe AnyRow (Makes (.cancel lookups requester id dto requestId)) Answers (cancelOrder lookups requester id dto requestId)
      [] [] := by
  rw [cancelOrder_shape]
  apply fromWaiting_safe
  intro loaded plan stored events updated planned waiting locked passed
  apply transaction_safe (by simp) (own_events _ ⟨_,List.mem_cons_self,rfl⟩) ⟨rfl,fun _ => rfl,.cancel planned locked waiting passed⟩
  exact success_answers _

theorem partlySellOrder_safe (lookups : Lookups) (requester : Requester) (id : Nat) (dto : PartlySellDto) (requestId : Option String)
    (qrCodeToken : String) : Safe AnyRow (Makes (.partlySell lookups requester id dto requestId qrCodeToken)) Answers
      (partlySellOrder lookups requester id dto requestId qrCodeToken) [] [] := by
  rw [partlySellOrder_shape]
  apply fromWaiting_safe
  intro loaded plan stored events updated planned waiting locked passed childId unused
  have apart : childId ≠ id := Ne.symm (unused _ (List.mem_singleton.mpr rfl))
  have stillLocked : Locks [⟨childId,none,[]⟩,⟨id,some stored,events⟩] id stored := ⟨⟨id,some stored,events⟩,by simp,rfl,rfl⟩
  apply transaction_safe
  · intro key value member
    have same : key = childId := by
      simp only [List.mem_cons,List.not_mem_nil,or_false,reduceCtorEq,false_or,Write.insert.injEq] at member
      exact member.1
    exact ⟨_,List.mem_cons_self,same.symm⟩
  · exact own_events _ ⟨_,List.mem_cons_self,rfl⟩
  · exact ⟨rfl,fun _ => rfl,.partlySell planned stillLocked waiting passed apart ⟨_,List.mem_cons_self,rfl,rfl⟩⟩
  · exact success_answers _

theorem rollback_safe (lookups : Lookups) (requester : Requester) (id : Nat) (targetStatus requestId : Option String) :
    Safe AnyRow (Makes (.rollback lookups requester id targetStatus requestId)) Answers
      (rollbackOrderToWaiting lookups requester id targetStatus requestId) [] [] := by
  unfold rollbackOrderToWaiting
  split
  · exact failure_answers _
  rename_i aim target
  apply findById_safe failure_answers
  intro loaded _
  split
  · exact failure_answers _
  rename_i allowed
  intro current _ _
  dsimp only
  split
  · exact failure_answers _
  split
  · exact failure_answers _
  rename_i plan planned
  apply lockUnchanged_safe failure_answers
  intro stored events unchanged table _ _
  dsimp only
  split
  · exact failure_answers _
  rename_i items _
  have locked : Locks [⟨id,some stored,events⟩] id stored := ⟨_,List.mem_singleton.mpr rfl,rfl,rfl⟩
  apply updateWithin_safe failure_answers locked
  intro updated passed
  have merged : ∀ child ∈ byCreation (table.select (partialChild id)),partialChild id child.1 child.2 = true := by
    intro child member
    have selected := List.mem_mergeSort.mp member
    exact (List.mem_filter.mp selected).2
  apply transaction_safe
  · exact fun key value member => absurd member (rollbackWrites_updates _ _ _ _ _ _ key value)
  · exact own_events _ ⟨_,List.mem_append.mpr (.inr (List.mem_singleton.mpr rfl)),rfl⟩
  · exact ⟨rfl,fun _ => rfl,.rollback target allowed planned locked unchanged passed merged⟩
  · exact success_answers _

theorem editOrder_parts {id : Nat} (edited : editOrder lookups requesterId id dto row = .ok updated) :
    updateOrder lookups requesterId dto row.order = .ok updated := by
  obtain ⟨_,-,rest⟩ := error_bind_parts edited
  obtain ⟨_,-,last⟩ := error_bind_parts rest
  exact last

theorem updateFull_safe (lookups : Lookups) (requesterId : Option Nat) (id : Nat) (dto : UpdateDto) :
    Safe AnyRow (Makes (.update lookups requesterId id dto)) Answers (updateFull lookups requesterId id dto) [] [] := by
  apply findById_safe failure_answers
  intro loaded _
  split
  · exact failure_answers _
  rename_i updated edited
  have passed := editOrder_parts edited
  have saved : ∀ notes : List Note,Safe AnyRow (Makes (.update lookups requesterId id dto)) Answers
      (saveUpdate lookups (.update lookups requesterId id dto) id loaded.order (updateEntity dto updated)) [] notes := by
    intro notes
    apply transaction_safe (by simp) (own_events _ ⟨_,List.mem_cons_self,rfl⟩) ⟨rfl,nofun,.update passed⟩
    exact success_answers _
  split
  · rename_i absent
    have same : updateEntity dto updated = updated := by simp [updateEntity,absent]
    exact same ▸ saved []
  · rename_i items given
    have same : updateEntity dto updated = {updated with productQuantity:=itemsQuantity items} := by simp [updateEntity,given]
    apply transaction_safe (by simp) (by simp) ⟨rfl,nofun,.items fun _ => []⟩
    apply transaction_safe (by simp) (by simp) ⟨rfl,nofun,.items fun old => old ++ items⟩
    exact same ▸ saved _

theorem markByProvider_safe (now id : Nat) (action : ProviderAction) :
    Safe AnyRow (Makes (.provider now id action)) Answers (markByProvider now id action) [] [] := by
  apply findById_safe failure_answers
  intro loaded _
  split
  · exact success_answers _
  · rename_i applies
    apply transaction_safe (by simp) (by simp) ⟨rfl,nofun,.provider (by simpa using applies)⟩
    exact success_answers _

theorem batch_safe {call : Call} {writes : List (Write OrderRow)} (still : call.settles = false) (updates : ∀ key value,.insert key value ∉ writes)
    (made : Transaction [] {call:=call} writes []) :
    Safe AnyRow (Makes call) Answers (.commit {call:=call} writes [] (success statusCode message)) [] [] := by
  apply transaction_safe (fun key value member => absurd member (updates key value)) (by simp) ⟨rfl,fun settles => absurd settles (by simp [still]),made⟩
  exact success_answers _

theorem request_safe (call : Call) : Safe AnyRow (Makes call) Answers call.request [] [] := by
  cases call with
  | sell lookups requester id dto requestId => exact sellOrder_safe lookups requester id dto requestId
  | partlySell lookups requester id dto requestId token => exact partlySellOrder_safe lookups requester id dto requestId token
  | cancel lookups requester id dto requestId => exact cancelOrder_safe lookups requester id dto requestId
  | rollback lookups requester id target requestId => exact rollback_safe lookups requester id target requestId
  | update lookups requesterId id dto => exact updateFull_safe lookups requesterId id dto
  | provider now id action => exact markByProvider_safe now id action
  | sendBatch now batch sentBatchId orderIds => exact batch_safe rfl (by simp [setWhere]) .sendBatch
  | receiveBatch now requesterId batch orderIds =>
    intro table _ _
    apply batch_safe rfl
    · simp [setWhere]
    · have read : ∀ (test : Nat × OrderRow → Bool),∀ id ∈ ((table.select fun key row =>
          orderIds.contains key && !row.order.isDeleted && row.order.deletedAt.isNone).filter test).map (·.1),id ∈ orderIds := by
        intro test id member
        obtain ⟨entry,selected,rfl⟩ := List.mem_map.mp member
        have listed := (List.mem_filter.mp (List.mem_filter.mp selected).1).2
        simp only [Bool.and_eq_true,List.contains_iff_mem] at listed
        exact listed.1.1
      exact .receiveBatch (read _) (read _)
  | receiveBatchOrders now requesterId batch selected remaining => exact batch_safe rfl (by simp [setWhere]) .receiveBatchOrders
  | cancelBatch now batch =>
    intro found _ _ matched _ _
    exact batch_safe rfl (by simp [setWhere]) (.cancelBatch (by simp +contextual))

theorem serve_sound {table : Table OrderRow} (keyed : table.Keyed) (below : ∀ key ∈ table.map (·.1),key < nextId)
    (calls : List Call) (turns : List Turn) :
    (serve table nextId calls turns).Sound AnyRow (fun who held made note writes entries =>
      ∃ call,calls[who]? = some call ∧ Makes call held made note writes entries) fun _ => Answers := by
  apply run_sound
  apply start_sound keyed below (by simp)
  · intro key
    cases table.row key with
    | none => rfl
    | some row => trivial
  · intro who prog found
    simp only [List.getElem?_map,Option.map_eq_some_iff] at found
    obtain ⟨call,here,rfl⟩ := found
    exact safe_mono (fun _ _ _ _ _ made => ⟨call,here,made⟩) (fun _ _ answers => answers) (request_safe call)

-- Every commit in the log is a transaction of one of the calls.
theorem serve_logged {table : Table OrderRow} (keyed : table.Keyed) (below : ∀ key ∈ table.map (·.1),key < nextId) {calls : List Call}
    {turns : List Turn} {commit : Commit OrderRow OrderEvent Note} (member : commit ∈ (serve table nextId calls turns).log) :
    commit.note.call ∈ calls ∧ Transaction commit.held commit.note commit.writes commit.entries ∧ Sees commit.held commit.before := by
  obtain ⟨⟨_,call,here,same,-,transaction⟩,sees⟩ := (serve_sound keyed below calls turns).logged commit member
  exact ⟨same ▸ List.mem_of_getElem? here,transaction,sees⟩

theorem serve_replays (table : Table OrderRow) (nextId : Nat) (calls : List Call) (turns : List Turn) :
    Replays table (serve table nextId calls turns).log (serve table nextId calls turns).table := by
  apply run_replays
  rfl

end Elchi.Orders
