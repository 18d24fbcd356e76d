import Elchi.FreshAdvances
import Elchi.OrderEpochs
namespace Elchi.Settlement
open RowLock Orders

def Note.rollsBack (id : Nat) : Note → Bool
  | .rolledBack order _ => order == id
  | .advanced _ _ _ => false
def atHq (table : Table Record) (id : Nat) : Bool := isSettledToHq (rowAt table (settlementKey id))

-- Whether the row has been BRANCH_SETTLED or further since the last rollback of its order.
def hqReached (id : Nat) (reached : Bool) (commit : SettlementCommit) : Bool :=
  if commit.note.rollsBack id then false else reached || atHq commit.after id
def reachedHq (id : Nat) (table : Table Record) (log : List SettlementCommit) : Bool := log.foldl (hqReached id) (atHq table id)

-- What the reset would have to look at, and does not: since the guard read it the row has not
-- moved, or only from PENDING to COURIER_SETTLED.
def guardHolds (commit : SettlementCommit) : Bool :=
  match commit.note with
  | .rolledBack id guarded => ((rowAt commit.before (settlementKey id)).filter (!·.isDeleted)).all fun row => guarded.any fun read =>
      row.status == read.status || read.status == .pending && row.status == .courierSettled
  | .advanced _ _ _ => true

theorem atHq_row {table : Table Record} {id : Nat} (settled : atHq table id = true) : ∃ row,rowAt table (settlementKey id) = some row ∧
    row.isDeleted = false ∧ (row.status = .branchSettled ∨ row.status = .marketSettled) := by
  unfold atHq isSettledToHq at settled
  cases found : rowAt table (settlementKey id) with
  | none => simp [found] at settled
  | some row =>
    simp only [found,Option.any_some,Bool.and_eq_true,Bool.not_eq_true',Bool.or_eq_true,beq_iff_eq] at settled
    exact ⟨row,rfl,settled⟩

theorem saved_elsewhere {saves : List (Write OrderRow)} (updates : ∀ key row,.insert key row ∉ saves) (key createdAt : Nat)
    (row : OrderSettlement) : written (saves.map onOrders) key (some (.settlement createdAt row)) = some (.settlement createdAt row) := by
  induction saves with
  | nil => rfl
  | cons write rest ih =>
    have tail := ih fun k r member => updates k r (List.mem_cons_of_mem _ member)
    cases write with
    | insert k r => exact absurd List.mem_cons_self (updates k r)
    | update k save =>
      rw [List.map_cons,onOrders,written_update]
      split
      · exact tail
      · exact tail

theorem settlementKey_exact {left right : Nat} (same : settlementKey left = settlementKey right) : left = right := by
  unfold settlementKey at same
  omega

-- One commit: only its own rollback takes a row back from headquarters.
theorem hq_kept {commit : SettlementCommit} {id : Nat} (made : Committed commit.note commit.writes commit.entries)
    (fresh : findsAsRead commit = true) (other : commit.note.rollsBack id = false) (settled : atHq commit.before id = true) :
    atHq commit.after id = true := by
  obtain ⟨row,found,live,status⟩ := atHq_row settled
  cases noted : commit.note with
  | advanced data paid result =>
    have madeAdvance := made
    rw [noted] at madeAdvance
    obtain ⟨actor,after⟩ := advanced_row madeAdvance commit.before (settlementKey id)
    rw [atHq,Commit.after,after]
    split
    · rename_i member
      obtain ⟨old,here,first⟩ := fresh_stage noted fresh member
      rw [found] at here
      cases here
      have level : data.level = .hqToMarket := by
        cases named : data.level with
        | hqToMarket => rfl
        | _ =>
          rw [first,named] at status
          rcases status with branch | market
          · cases branch
          · cases market
      simp [found,isSettledToHq,live,level,Level.toStatus]
    · exact settled
  | rolledBack order guarded =>
    rw [noted] at made other
    have apart : settlementKey order ≠ settlementKey id := by
      intro same
      rw [settlementKey_exact same] at other
      simp [Note.rollsBack] at other
    obtain ⟨createdAt,stored⟩ := rowAt_record found
    have kept : commit.after.row (settlementKey id) = some (.settlement createdAt row) := by
      rw [Commit.after,applyWrites_row,stored]
      generalize commit.writes = writes at made
      generalize commit.entries = entries at made
      cases made with
      | rolledBack updates _ _ => rw [written_append,saved_elsewhere updates,written_update,if_neg apart,written_nil]
    rw [atHq,rowAt,kept]
    rw [atHq,rowAt,stored] at settled
    exact settled

def Steady (commit : SettlementCommit) : Prop := Committed commit.note commit.writes commit.entries ∧ findsAsRead commit = true ∧
  guardHolds commit = true

-- A run: a row that has reached headquarters is there still.
theorem reached_now {first last : Table Record} {log : List SettlementCommit} {id : Nat} (path : Replays first log last)
    (steady : ∀ commit ∈ log,Steady commit) {reached : Bool} (now : reached = true → atHq first id = true)
    (after : log.foldl (hqReached id) reached = true) : atHq last id = true := by
  induction log generalizing first reached with
  | nil =>
    cases path
    exact now after
  | cons commit rest ih =>
    obtain ⟨rfl,later⟩ := path
    obtain ⟨⟨made,fresh,-⟩,others⟩ := List.forall_mem_cons.mp steady
    apply ih later others ?_ after
    intro here
    unfold hqReached at here
    split at here
    · cases here
    · rename_i other
      rcases Bool.or_eq_true_iff.mp here with before | now'
      · exact hq_kept made fresh (Bool.eq_false_iff.mpr other) (now before)
      · exact now'

-- At its commit a rollback whose guard still holds finds the row short of headquarters.
theorem guarded_short {commit : SettlementCommit} {id : Nat} (steady : Steady commit) (rolls : commit.note.rollsBack id = true) :
    atHq commit.before id = false := by
  obtain ⟨made,-,guard⟩ := steady
  cases noted : commit.note with
  | advanced data paid result =>
    rw [noted] at rolls
    cases rolls
  | rolledBack order guarded =>
    rw [noted] at rolls made
    obtain rfl : order = id := by simpa [Note.rollsBack] using rolls
    cases settled : atHq commit.before order with
    | false => rfl
    | true =>
      obtain ⟨row,found,live,status⟩ := atHq_row settled
      rw [guardHolds,noted] at guard
      simp only [found,Option.filter_some,live,Bool.not_false,if_true,Option.all_some] at guard
      generalize commit.writes = writes at made
      generalize commit.entries = entries at made
      cases made with
      | rolledBack _ alive unsettled =>
        cases guarded with
        | none => cases guard
        | some read =>
          have present := alive read rfl
          simp only [Option.any_some,Bool.or_eq_true,Bool.and_eq_true,beq_iff_eq] at guard
          simp only [isSettledToHq,Option.any_some,present,Bool.not_false,Bool.true_and,Bool.or_eq_false_iff,beq_eq_false_iff_ne] at unsettled
          rcases guard with same | ⟨-,courier⟩
          · rw [same] at status
            rcases status with branch | market
            · exact absurd branch unsettled.1
            · exact absurd market unsettled.2
          · rw [courier] at status
            rcases status with branch | market
            · cases branch
            · cases market

-- Under these conditions no order is rolled back after its row has reached headquarters.
theorem rollback_short_of_hq {table : Table Record} (keyed : table.Keyed) (below : ∀ key ∈ table.map (·.1),key < nextId)
    (calls : List Call) (turns : List Turn)
    (steady : ∀ commit ∈ (serve table nextId calls turns).log,findsAsRead commit = true ∧ guardHolds commit = true)
    (id n : Nat) (commit : SettlementCommit) (here : (serve table nextId calls turns).log[n]? = some commit)
    (rolls : commit.note.rollsBack id = true) : reachedHq id table ((serve table nextId calls turns).log.take n) = false := by
  have all : ∀ c ∈ (serve table nextId calls turns).log,Steady c :=
    fun c member => ⟨(serve_logged keyed below member).2,steady c member⟩
  have path := serve_replays table nextId calls turns
  obtain ⟨inside,rfl⟩ := List.getElem?_eq_some_iff.mp here
  rw [←List.take_append_drop n (serve table nextId calls turns).log,List.drop_eq_getElem_cons inside] at path
  obtain ⟨middle,before,now,-⟩ := path.split
  cases reached : reachedHq id table ((serve table nextId calls turns).log.take n) with
  | false => rfl
  | true =>
    have settled := reached_now before (fun c member => all c (List.mem_of_mem_take member)) (fun here => here) reached
    rw [←now,guarded_short (all _ (List.getElem_mem inside)) rolls] at settled
    cases settled

-- A courier's sold order with its row, the courier's and the branch's handover and the courier's rollback.
def soldRecord : Table Record :=
  [(orderKey 0,.order ⟨{sampleOrder with status:=.sold,soldAt:=some 40},[],none⟩),(settlementKey 0,.settlement 40 openRow)]
def rollbackCalls : List Call :=
  [.rollback (sampleLookups 3000000 70) sampleCourier 0 none none,.advance (courierPays 100),.advance (branchPays 60)]
def handedOver : List Turn := [.step 1 0,.step 1 0,.step 1 0,.step 2 0,.step 2 0,.step 2 0]
def rolling (steps : Nat) : List Turn := List.replicate steps (.step 0 0)

-- The courier's handover goes through while the rollback waits, the branch's comes too late.
theorem rollback_short_of_hq_courier :
    let run := serve soldRecord 2 rollbackCalls (rolling 2 ++ handedOver.take 3 ++ rolling 5 ++ handedOver.drop 3)
    run.log.map (·.note.rollsBack 0) = [false,true,false] ∧ atHq run.table 0 = false ∧
    reachedHq 0 soldRecord (run.log.take 1) = false := by
  intro run
  have second : (run.log[1]?.any fun commit => commit.note.rollsBack 0) = true := by decide +kernel
  obtain ⟨commit,here,rolls⟩ := (Option.any_eq_true _ _).mp second
  have steady : run.log.all (fun commit => findsAsRead commit && guardHolds commit) = true := by decide +kernel
  refine ⟨by decide +kernel,by decide +kernel,rollback_short_of_hq (by decide) (by decide) rollbackCalls _ ?_ 0 1 commit here rolls⟩
  intro c member
  exact Bool.and_eq_true_iff.mp (List.all_eq_true.mp steady c member)

-- Both handovers commit after the rollback's guard has read PENDING.
theorem rollback_after_hq :
    let run := serve soldRecord 2 rollbackCalls (rolling 2 ++ handedOver ++ rolling 5)
    run.log.map (·.note.rollsBack 0) = [false,false,true] ∧ reachedHq 0 soldRecord (run.log.take 2) = true := by
  decide +kernel

end Elchi.Settlement
