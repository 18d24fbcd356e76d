import Elchi.OrderEpochs
namespace Elchi.Orders
open RowLock

def Call.sells (id : Nat) : Call → Bool
  | .sell _ _ order _ _ => order == id
  | .partlySell _ _ order _ _ _ => order == id
  | _ => false
def Call.rollsBack (id : Nat) : Call → Bool
  | .rollback _ _ order _ _ => order == id
  | _ => false

-- Whether the cashbox legs of a sale of this order stand unreversed after these commits.
def saleStands (id : Nat) (stands : Bool) (commit : OrderCommit) : Bool :=
  if commit.note.call.sells id then true
  else if commit.note.call.rollsBack id && commit.note.loaded.any fun order => isSold order.status then false
  else stands
def standing (id : Nat) (posted : Bool) (log : List OrderCommit) : Bool := log.foldl (saleStands id) posted

-- The commit is a rollback that read this order sold and whose cashbox legs are the reversal
-- computed from that reading.
def Reversing (id : Nat) (commit : OrderCommit) : Prop :=
  ∃ lookups requester targetStatus requestId loaded target plan,
    commit.note.call = .rollback lookups requester id targetStatus requestId ∧ commit.note.loaded = some loaded ∧
    isSold loaded.status = true ∧ rollbackPlan lookups requester id loaded target requestId = .ok plan ∧
    legsOf (commit.entries.map (·.2)) = plan.legs

def soldIn (table : Table OrderRow) (id : Nat) : Bool := (statusAt table id).any isSold
def UnsoldWhere (table : Table OrderRow) (id : Nat) (condition : Order → Bool) : Prop :=
  ∀ row,table.row id = some row → row.order.isDeleted = false → condition row.order = true → isSold row.order.status = false

-- What the other writers would have to look at, and do not: over a sold row an update carries a
-- sold status, a provider only sells, and no batch or merged child has a sold row to rewrite.
def Keeps (commit : OrderCommit) : Prop :=
  match commit.note.call with
  | .update _ _ id dto => ∀ loaded,commit.note.loaded = some loaded → soldIn commit.before id = true →
      isSold (dto.status.getD loaded.status) = true
  | .provider _ id action => soldIn commit.before id = true → action = .sell
  | .rollback _ _ _ _ _ => ∀ child ∈ commit.note.children,soldIn commit.before child.1 = false
  | .sendBatch _ batch _ orderIds => batch.forward = true → ∀ id ∈ orderIds,
      UnsoldWhere commit.before id fun order => order.currentBatchId == some batch.id
  | .receiveBatch _ _ _ orderIds => ∀ id ∈ orderIds,UnsoldWhere commit.before id anyOrder
  | .receiveBatchOrders _ _ batch selected remaining => (∀ id ∈ selected,UnsoldWhere commit.before id anyOrder) ∧
      (batch.forward = true → ∀ id ∈ remaining,UnsoldWhere commit.before id anyOrder)
  | .cancelBatch _ batch => batch.forward = true → ∀ id,
      UnsoldWhere commit.before id fun order => order.currentBatchId == some batch.id
  | _ => True

theorem kept_status {commit : OrderCommit} (same : statusAt commit.after key = statusAt commit.before key) :
    leavesSold key commit = false := by
  simp [leavesSold,same]
theorem unsold_before {commit : OrderCommit} (unsold : soldIn commit.before key = false) : leavesSold key commit = false := by
  have none : (statusAt commit.before key).any isSold = false := unsold
  simp [leavesSold,none]
theorem sold_after {commit : OrderCommit} (sold : soldIn commit.after key = true) : leavesSold key commit = false := by
  have some : (statusAt commit.after key).any isSold = true := sold
  simp [leavesSold,some]

-- A raw UPDATE leaves alone the rows it does not match.
theorem setColumns_skips {condition : Order → Bool} {set : Order → Order} (skipped : row.order.isDeleted = false → condition row.order = false) :
    setColumns now condition set row = row := by
  unfold setColumns
  split
  · rename_i hit
    simp only [Bool.and_eq_true,Bool.not_eq_true'] at hit
    rw [skipped hit.1] at hit
    cases hit.2
  · rfl
theorem setWhere_skips (ids : List Nat) {condition : Order → Bool} {set : Order → Order} {row : Option OrderRow}
    (skipped : key ∈ ids → ∀ stored,row = some stored → stored.order.isDeleted = false → condition stored.order = false) :
    written (setWhere now ids condition set) key row = row := by
  induction ids with
  | nil => rfl
  | cons head rest ih =>
    rw [setWhere,List.map_cons,written_update]
    have tail := ih fun member => skipped (by simp [member])
    by_cases same : head = key
    · have kept : row.map (setColumns now condition set) = row := by
        cases row with
        | none => rfl
        | some stored => rw [Option.map_some,setColumns_skips (skipped (by simp [same]) stored rfl)]
      rw [if_pos same,kept]
      exact tail
    · rw [if_neg same]
      exact tail
theorem setWhere_status (now : Nat) (ids : List Nat) (condition : Order → Bool) {set : Order → Order}
    (keeps : ∀ order,(set order).status = order.status) (key : Nat) (row : Option OrderRow) :
    (written (setWhere now ids condition set) key row).map (·.order.status) = row.map (·.order.status) := by
  induction ids generalizing row with
  | nil => rfl
  | cons head rest ih =>
    rw [setWhere,List.map_cons,written_update]
    refine (ih _).trans ?_
    by_cases same : head = key
    · rw [if_pos same]
      cases row with
      | none => rfl
      | some stored =>
        simp only [Option.map_some,setColumns]
        split
        · simp [keeps]
        · rfl
    · rw [if_neg same]

theorem detached_kept (order : Order) : (detached false order).status = order.status := rfl

theorem unsold_where {table : Table OrderRow} (unsold : UnsoldWhere table key condition) (sold : soldIn table key = true) :
    ∀ stored,table.row key = some stored → stored.order.isDeleted = false → condition stored.order = false := by
  intro stored here live
  cases matched : condition stored.order with
  | false => rfl
  | true =>
    have none := unsold stored here live matched
    simp [soldIn,statusAt,here,none] at sold

theorem children_skip (now : Nat) {children : Table OrderRow} (absent : ∀ child ∈ children,child.1 ≠ key) (row : Option OrderRow) :
    written (children.map (deleteChild now)) key row = row := by
  apply written_untouched
  intro write member
  obtain ⟨child,inside,rfl⟩ := List.mem_map.mp member
  exact absent child inside

theorem waiting_apart {held : List (Held OrderRow OrderEvent)} {id : Nat} (locked : Locks held id stored) (sees : Sees held before)
    (waiting : stored.order.status = .waiting) (sold : soldIn before key = true) : key ≠ id := by
  rintro rfl
  rw [soldIn,statusAt,locks_row locked sees,Option.map_some,Option.any_some,waiting] at sold
  cases sold

theorem soldIn_row {table : Table OrderRow} (sold : soldIn table key = true) : ∃ row,table.row key = some row := by
  cases here : table.row key with
  | none => simp [soldIn,statusAt,here] at sold
  | some row => exact ⟨row,rfl⟩

-- The step: under the condition an order leaves the sold states only in its own rollback.
theorem leaves_reversing {commit : OrderCommit} (made : Transaction commit.held commit.note commit.writes commit.entries)
    (sees : Sees commit.held commit.before) (keeps : Keeps commit) (leaves : leavesSold key commit = true) : Reversing key commit := by
  have sold : soldIn commit.before key = true := by
    cases before : soldIn commit.before key with
    | true => rfl
    | false => rw [unsold_before before] at leaves; cases leaves
  have moved : ∀ {P : Prop},statusAt commit.after key = statusAt commit.before key → P := by
    intro P same
    rw [kept_status same] at leaves
    cases leaves
  have status : statusAt commit.after key = (written commit.writes key (commit.before.row key)).map (·.order.status) := statusAt_applied _ _ _
  obtain ⟨who,note,held,before,writes,entries⟩ := commit
  dsimp only at made sees sold moved status
  cases made with
  | sell planned locked waiting passed => exact moved (update_elsewhere before _ (waiting_apart locked sees waiting sold))
  | partlySell planned locked waiting passed apart childNew =>
    apply moved
    have other := waiting_apart locked sees waiting sold
    obtain ⟨h,inHeld,rfl,missing⟩ := childNew
    have different : h.key ≠ key := by
      rintro rfl
      simp [soldIn,statusAt,sees h inHeld,missing] at sold
    rw [status]
    simp [written_cons,Write.key,Ne.symm other,different,statusAt]
  | cancel planned locked waiting passed => exact moved (update_elsewhere before _ (waiting_apart locked sees waiting sold))
  | rollback target allowed planned locked unchanged passed merged =>
    rename_i loaded _ _ _ stored updated children _ id
    by_cases same : key = id
    · subst same
      have read : isSold loaded.status = true := by
        rw [←unchanged]
        simpa [soldIn,statusAt,locks_row locked sees] using sold
      refine ⟨_,_,_,_,loaded,_,_,rfl,rfl,read,planned,?_⟩
      obtain ⟨courierId,parties,-,-,rfl⟩ := rollbackPlan_parts planned
      rw [legsOf_own,legsOf_append,legsOf_status,List.append_nil,legsOf_reversal]
    · apply moved
      have absent : ∀ child ∈ children,child.1 ≠ key := by
        rintro child member rfl
        rw [keeps child member] at sold
        cases sold
      rw [status,rollbackWrites,written_append,children_skip _ absent,written_update,if_neg (Ne.symm same),written_nil]
      rfl
  | items edit =>
    rename_i id
    apply moved
    rw [status,written_update,written_nil]
    by_cases same : id = key
    · rw [if_pos same,Option.map_map]
      rfl
    · rw [if_neg same]
      rfl
  | update passed =>
    rename_i loaded updated id
    by_cases same : key = id
    · subst same
      obtain ⟨stored,here⟩ := soldIn_row sold
      have carried := keeps loaded rfl sold
      rw [sold_after] at leaves
      · cases leaves
      · change soldIn (applyWrites before [_]) key = true
        rw [soldIn,update_status before here]
        simpa [saveRow,updateEntity,(updateOrder_parts passed).1] using carried
    · exact moved (update_elsewhere before _ same)
  | provider applies =>
    rename_i now action loaded id
    by_cases same : key = id
    · subst same
      obtain ⟨stored,here⟩ := soldIn_row sold
      have sells : action = .sell := keeps sold
      rw [sold_after] at leaves
      · cases leaves
      · change soldIn (applyWrites before [_]) key = true
        rw [soldIn,update_status before here]
        simp [saveRow,providerOrder,sells,ProviderAction.target]
        rfl
    · exact moved (update_elsewhere before _ same)
  | sendBatch =>
    rename_i now batch sentBatchId orderIds
    apply moved
    rw [status]
    cases forward : batch.forward with
    | true =>
      rw [setWhere_skips orderIds]
      · rfl
      · exact fun member => unsold_where (keeps forward key member) sold
    | false => exact setWhere_status now orderIds _ (by simp) key _
  | receiveBatch localIn transitIn =>
    rename_i localOrderIds orderIds transitOrderIds now requesterId batch
    apply moved
    have skips : ∀ ids : List Nat,(∀ id ∈ ids,id ∈ orderIds) → ∀ set,
        written (setWhere now ids anyOrder set) key (before.row key) = before.row key := by
      intro ids inside set
      apply setWhere_skips
      exact fun member => unsold_where (keeps key (inside key member)) sold
    rw [status,written_append,written_append,skips orderIds (fun _ member => member),skips localOrderIds localIn,
      skips transitOrderIds transitIn]
    rfl
  | receiveBatchOrders =>
    rename_i now requesterId batch selected remaining
    apply moved
    rw [status,written_append,setWhere_skips selected fun member => unsold_where (keeps.1 key member) sold]
    cases forward : batch.forward with
    | true =>
      rw [setWhere_skips remaining fun member => unsold_where (keeps.2 forward key member) sold]
      rfl
    | false => exact setWhere_status now remaining anyOrder detached_kept key _
  | cancelBatch requeued =>
    rename_i requeue _ _ matched
    apply moved
    rw [status]
    cases requeue with
    | true =>
      rw [setWhere_skips matched fun _ => unsold_where (keeps (requeued rfl) key) sold]
      rfl
    | false => exact setWhere_status _ matched _ detached_kept key _

theorem sells_sold {commit : OrderCommit} (made : Transaction commit.held commit.note commit.writes commit.entries)
    (sees : Sees commit.held commit.before) (sells : commit.note.call.sells key = true) : soldIn commit.after key = true := by
  obtain ⟨who,note,held,before,writes,entries⟩ := commit
  dsimp only at made sees sells
  change soldIn (applyWrites before writes) key = true
  cases made with
  | sell planned locked waiting passed =>
    cases beq_iff_eq.mp sells
    obtain ⟨status,set,sold⟩ := sellPlan_status planned
    rw [soldIn,update_status before (locks_row locked sees)]
    simp [soldRow,saveRow,(updateOrder_parts passed).1,set,sold]
  | partlySell planned locked waiting passed apart childNew =>
    cases beq_iff_eq.mp sells
    obtain ⟨status,set,sold⟩ := partlySellPlan_status planned
    rw [soldIn,statusAt_applied]
    simp [written_cons,Write.key,Write.result,locks_row locked sees,apart,partlySoldRow,(updateOrder_parts passed).1,set,sold]
  | _ => cases sells

-- One commit keeps the books: an unsold order has no sale standing.
theorem keeps_books {id : Nat} {commit : OrderCommit} (made : Transaction commit.held commit.note commit.writes commit.entries)
    (sees : Sees commit.held commit.before) (keeps : Keeps commit) (books : soldIn commit.before id = false → stands = false)
    (unsold : soldIn commit.after id = false) : saleStands id stands commit = false := by
  unfold saleStands
  split
  · rename_i sells
    rw [sells_sold made sees sells] at unsold
    cases unsold
  · split
    · rfl
    · rename_i other
      cases before : soldIn commit.before id with
      | false => exact books before
      | true =>
        have leaves : leavesSold id commit = true := by
          have left : (statusAt commit.before id).any isSold = true := before
          have gone : (statusAt commit.after id).any isSold = false := unsold
          simp [leavesSold,left,gone]
        obtain ⟨_,_,_,_,loaded,_,_,call,read,sold,-,-⟩ := leaves_reversing made sees keeps leaves
        simp [call,read,sold,Call.rollsBack] at other

theorem replays_books {id : Nat} {first last : Table OrderRow} {log : List OrderCommit} (path : Replays first log last)
    (made : ∀ commit ∈ log,Transaction commit.held commit.note commit.writes commit.entries ∧ Sees commit.held commit.before)
    (keeps : ∀ commit ∈ log,Keeps commit) (books : soldIn first id = false → posted = false) (unsold : soldIn last id = false) :
    standing id posted log = false := by
  induction log generalizing first posted with
  | nil =>
    cases path
    exact books unsold
  | cons commit rest ih =>
    obtain ⟨transaction,sees⟩ := made commit List.mem_cons_self
    have here : soldIn commit.before id = false → posted = false := path.1 ▸ books
    refine ih path.2 (fun other member => made other (List.mem_cons_of_mem _ member))
      (fun other member => keeps other (List.mem_cons_of_mem _ member)) ?_
    exact keeps_books transaction sees (keeps commit List.mem_cons_self) here

-- In every state reached by commits that all meet the condition, an order has left the sold
-- states only through its reversing rollback, and no unsold order has a sale standing.
theorem sold_left_by_rollback {table : Table OrderRow} (keyed : table.Keyed) (below : ∀ key ∈ table.map (·.1),key < nextId)
    (posted : Nat → Bool) (books : ∀ id,soldIn table id = false → posted id = false) (calls : List Call) (turns : List Turn)
    (keeps : ∀ commit ∈ (serve table nextId calls turns).log,Keeps commit) :
    (∀ commit ∈ (serve table nextId calls turns).log,∀ id,leavesSold id commit = true → Reversing id commit) ∧
    ∀ id,soldIn (serve table nextId calls turns).table id = false →
      standing id (posted id) (serve table nextId calls turns).log = false := by
  have made : ∀ commit ∈ (serve table nextId calls turns).log,
      Transaction commit.held commit.note commit.writes commit.entries ∧ Sees commit.held commit.before :=
    fun commit member => (serve_logged keyed below member).2
  constructor
  · intro commit member id leaves
    obtain ⟨transaction,sees⟩ := made commit member
    exact leaves_reversing transaction sees (keeps commit member) leaves
  · intro id unsold
    exact replays_books (serve_replays table nextId calls turns) made keeps (books id) unsold

theorem keeps_plain {commit : OrderCommit} (plain : commit.note.call.closesOrder = true ∨
    commit.note.call.isRollback = true ∧ commit.note.children.isEmpty = true) : Keeps commit := by
  unfold Keeps
  cases call : commit.note.call with
  | rollback lookups requester id target requestId =>
    rcases plain with closes | ⟨-,empty⟩
    · rw [call] at closes
      cases closes
    · rw [List.isEmpty_iff.mp empty]
      intro child member
      cases member
  | sell lookups requester id dto requestId => trivial
  | partlySell lookups requester id dto requestId token => trivial
  | cancel lookups requester id dto requestId => trivial
  | _ => simp [call,Call.closesOrder,Call.isRollback] at plain

-- A sale, then its rollback by the same courier: the condition holds of both commits.
def saleAndRollback : List Call :=
  [.sell (sampleLookups 3000000 1000) sampleCourier 11 {} (some "a"),
   .rollback (sampleLookups 3000000 2000) sampleCourier 11 none (some "b")]
def saleAndRollbackTurns : List Turn :=
  [.step 0 0,.step 0 0,.step 0 0,.step 0 0,.step 1 0,.step 1 0,.step 1 0,.step 1 0,.step 1 0,.step 1 0]

theorem sold_left_by_rollback_courier :
    statusAt (serve sampleTable 12 saleAndRollback saleAndRollbackTurns).table 11 = some .waiting ∧
    (serve sampleTable 12 saleAndRollback saleAndRollbackTurns).log.length = 2 ∧
    standing 11 false (serve sampleTable 12 saleAndRollback saleAndRollbackTurns).log = false := by
  refine ⟨by decide +kernel,by decide +kernel,?_⟩
  have plain : ∀ commit ∈ (serve sampleTable 12 saleAndRollback saleAndRollbackTurns).log,
      commit.note.call.closesOrder = true ∨ commit.note.call.isRollback = true ∧ commit.note.children.isEmpty = true := by
    decide +kernel
  exact (sold_left_by_rollback (by decide) (by decide) (fun _ => false) (fun _ _ => rfl) saleAndRollback saleAndRollbackTurns
    fun commit member => keeps_plain (plain commit member)).2 11 (by decide +kernel)

-- The same sale, and then the courier scans the sold parcel again.
def saleAndScan : List Call :=
  [.sell (sampleLookups 3000000 1000) sampleCourier 11 {} (some "a"),receiveOrderWithScannerCourier (sampleLookups 3000000 2000) 11]
def saleAndScanTurns : List Turn := [.step 0 0,.step 0 0,.step 0 0,.step 0 0,.step 1 0,.step 1 0]

theorem scanned_sale_stands :
    (∃ commit ∈ (serve sampleTable 12 saleAndScan saleAndScanTurns).log,
      leavesSold 11 commit = true ∧ commit.note.call.isRollback = false ∧ legsOf (commit.entries.map (·.2)) = []) ∧
    statusAt (serve sampleTable 12 saleAndScan saleAndScanTurns).table 11 = some .waiting ∧
    standing 11 false (serve sampleTable 12 saleAndScan saleAndScanTurns).log = true ∧
    legsOf ((serve sampleTable 12 saleAndScan saleAndScanTurns).journal.map (·.2)) ≠ [] := by
  decide

end Elchi.Orders
