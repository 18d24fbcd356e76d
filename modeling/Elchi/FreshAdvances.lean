import Elchi.SettlementRuns
namespace Elchi.Settlement
open RowLock Orders

abbrev SettlementCommit := Commit Record OrderEvent Note

def stage : SettlementStatus → Nat
  | .pending => 0
  | .courierSettled => 1
  | .branchSettled => 2
  | .marketSettled => 3
-- The legs a row has passed.
def cleared (row : OrderSettlement) : Int :=
  match row.status with
  | .pending => 0
  | .courierSettled => Level.courierToBranch.leg row
  | .branchSettled => Level.courierToBranch.leg row + Level.branchToHq.leg row
  | .marketSettled => Level.courierToBranch.leg row + Level.branchToHq.leg row + Level.hqToMarket.leg row
def Record.cleared (record : Record) : Int := record.settlement?.elim 0 Settlement.cleared

def rowAt (table : Table Record) (key : Nat) : Option OrderSettlement := (table.row key).bind Record.settlement?
def stageAt (table : Table Record) (key : Nat) : Nat := (rowAt table key).elim 0 fun row => stage row.status

-- How often a payment consumes this level's leg of a row, and what it reports as allocated.
def Note.consumes (level : Level) (key : Nat) : Note → Nat
  | .advanced data settled _ => if data.level = level then (settled.map (·.1)).count key else 0
  | .rolledBack _ _ => 0
def Note.allocated : Note → Int
  | .advanced _ _ result => result.allocated
  | .rolledBack _ _ => 0

-- What the UPDATE would have to look at, and does not: a row it is about to write still has the
-- status and the leg that were read.
def findsAsRead (commit : SettlementCommit) : Bool :=
  match commit.note with
  | .advanced data settled _ => settled.all fun entry => (rowAt commit.before entry.1).any fun row =>
      row.status == data.level.fromStatus && data.level.leg row == entry.2
  | .rolledBack _ _ => true

theorem level_stage (level : Level) : stage level.toStatus = stage level.fromStatus + 1 := by
  cases level with
  | _ => rfl
@[simp] theorem stamp_status (level : Level) (now actor : Nat) (row : OrderSettlement) : (level.stamp now actor row).status = level.toStatus := by
  cases level with
  | _ => rfl
@[simp] theorem stamp_deleted (level : Level) (now actor : Nat) (row : OrderSettlement) : (level.stamp now actor row).isDeleted = row.isDeleted := by
  cases level with
  | _ => rfl
theorem stamp_cleared (level : Level) (now actor : Nat) {row : OrderSettlement} (first : row.status = level.fromStatus) :
    cleared (level.stamp now actor row) - cleared row = level.leg row := by
  cases level with
  | courierToBranch => simp [cleared,first,Level.stamp,Level.fromStatus,Level.leg,Level.amount]
  | branchToHq => simp [cleared,first,Level.stamp,Level.fromStatus,Level.leg,Level.amount]
  | hqToMarket => simp [cleared,first,Level.stamp,Level.fromStatus,Level.leg,Level.amount]

theorem rowAt_record {table : Table Record} (found : rowAt table key = some row) : ∃ createdAt,table.row key = some (.settlement createdAt row) := by
  obtain ⟨record,stored,here⟩ := Option.bind_eq_some_iff.mp found
  cases record with
  | order other => cases here
  | settlement createdAt other =>
    cases here
    exact ⟨createdAt,stored⟩

-- All an advance does to the rows.
theorem advanced_row {data : Advance} {settled : List (Nat × Int)} (made : Committed (.advanced data settled result) writes entries)
    (before : Table Record) (key : Nat) : ∃ actor,rowAt (applyWrites before writes) key =
      if key ∈ settled.map (·.1) then (rowAt before key).map (data.level.stamp data.now actor) else rowAt before key := by
  cases made with
  | advanced actor distinct _ stamped =>
    refine ⟨actor,?_⟩
    rw [rowAt,applyWrites_row,stamped,written_updates distinct]
    split
    · rw [rowAt]
      cases before.row key with
      | none => rfl
      | some record => cases record with
        | order row => rfl
        | settlement createdAt row => rfl
    · rfl

theorem advanced_cleared {data : Advance} {settled : List (Nat × Int)} (made : Committed (.advanced data settled result) writes entries)
    {before : Table Record} (keyed : before.Keyed) (fresh : ∀ entry ∈ settled,∃ row,rowAt before entry.1 = some row ∧
      row.status = data.level.fromStatus ∧ data.level.leg row = entry.2) :
    (applyWrites before writes).weigh Record.cleared = before.weigh Record.cleared + result.allocated := by
  cases made with
  | advanced actor distinct allocated stamped =>
    rw [stamped,weigh_updates distinct keyed,allocated,List.map_map]
    congr 2
    apply List.map_congr_left
    intro entry member
    obtain ⟨row,found,first,leg⟩ := fresh entry member
    obtain ⟨createdAt,stored⟩ := rowAt_record found
    rw [Function.comp_apply,stored,Option.elim_some,←leg]
    exact stamp_cleared data.level data.now actor first

theorem fresh_rows {commit : SettlementCommit} {settled : List (Nat × Int)} (noted : commit.note = .advanced data settled result)
    (fresh : findsAsRead commit = true) : ∀ entry ∈ settled,∃ row,rowAt commit.before entry.1 = some row ∧
      row.status = data.level.fromStatus ∧ data.level.leg row = entry.2 := by
  intro entry member
  rw [findsAsRead,noted] at fresh
  have here := List.all_eq_true.mp fresh entry member
  cases found : rowAt commit.before entry.1 with
  | none => simp [found] at here
  | some row =>
    simp only [found,Option.any_some,Bool.and_eq_true,beq_iff_eq] at here
    exact ⟨row,rfl,here⟩

theorem fresh_stage {commit : SettlementCommit} {settled : List (Nat × Int)} (noted : commit.note = .advanced data settled result)
    (fresh : findsAsRead commit = true) (member : key ∈ settled.map (·.1)) :
    ∃ row,rowAt commit.before key = some row ∧ row.status = data.level.fromStatus := by
  obtain ⟨entry,inside,rfl⟩ := List.mem_map.mp member
  obtain ⟨row,found,first,-⟩ := fresh_rows noted fresh entry inside
  exact ⟨row,found,first⟩

-- One commit: a row it consumes goes one stage further, the others stay.
theorem fresh_forward {commit : SettlementCommit} {settled : List (Nat × Int)} (made : Committed commit.note commit.writes commit.entries)
    (noted : commit.note = .advanced data settled result) (fresh : findsAsRead commit = true) (key : Nat) : stageAt commit.after key =
      if key ∈ settled.map (·.1) then stageAt commit.before key + 1 else stageAt commit.before key := by
  rw [noted] at made
  obtain ⟨actor,after⟩ := advanced_row made commit.before key
  rw [stageAt,Commit.after,after]
  split
  · rename_i member
    obtain ⟨row,found,first⟩ := fresh_stage noted fresh member
    simp [stageAt,found,level_stage,first]
  · rfl

-- The commit of a payment that finds its rows as it read them.
def FreshAdvance (commit : SettlementCommit) : Prop := Committed commit.note commit.writes commit.entries ∧ findsAsRead commit = true ∧
  ∃ data settled result,commit.note = .advanced data settled result

theorem fresh_consumes {commit : SettlementCommit} (advance : FreshAdvance commit) (level : Level) (key : Nat) :
    commit.note.consumes level key = 0 ∨ commit.note.consumes level key = 1 ∧
      stageAt commit.before key = stage level.fromStatus ∧ stageAt commit.after key = stage level.fromStatus + 1 := by
  obtain ⟨made,fresh,data,settled,result,noted⟩ := advance
  have moved := fresh_forward made noted fresh key
  rw [noted] at made ⊢
  have distinct : (settled.map (·.1)).Nodup := by
    generalize commit.entries = entries at made
    cases made with
    | advanced actor distinct _ _ => exact distinct
  by_cases taken : data.level = level ∧ key ∈ settled.map (·.1)
  · obtain ⟨rfl,member⟩ := taken
    obtain ⟨row,found,first⟩ := fresh_stage noted fresh member
    have here : stageAt commit.before key = stage data.level.fromStatus := by simp [stageAt,found,first]
    refine .inr ⟨?_,here,?_⟩
    · simp [Note.consumes,List.count_eq_one_of_mem distinct member]
    · rw [moved,if_pos member,here]
  · left
    simp only [Note.consumes]
    split
    · rename_i same
      exact List.count_eq_zero.mpr fun member => taken ⟨same,member⟩
    · rfl

theorem fresh_stays {commit : SettlementCommit} (advance : FreshAdvance commit) (key : Nat) :
    stageAt commit.before key ≤ stageAt commit.after key := by
  obtain ⟨made,fresh,data,settled,result,noted⟩ := advance
  rw [fresh_forward made noted fresh key]
  split
  · exact Nat.le_succ _
  · exact Nat.le_refl _

-- A run: what a row has passed is not consumed again.
theorem passed_unconsumed {first last : Table Record} {log : List SettlementCommit} (path : Replays first log last)
    (advances : ∀ commit ∈ log,FreshAdvance commit) (level : Level) (key : Nat) (passed : stage level.fromStatus < stageAt first key) :
    (log.map fun commit => commit.note.consumes level key).sum = 0 := by
  induction log generalizing first with
  | nil => rfl
  | cons commit rest ih =>
    obtain ⟨rfl,later⟩ := path
    obtain ⟨advance,others⟩ := List.forall_mem_cons.mp advances
    have further := fresh_stays advance key
    have tail := ih later others (by omega)
    rw [List.map_cons,List.sum_cons,tail]
    rcases fresh_consumes advance level key with zero | ⟨-,here,-⟩
    · rw [zero]
    · omega

theorem consumed_once {first last : Table Record} {log : List SettlementCommit} (path : Replays first log last)
    (advances : ∀ commit ∈ log,FreshAdvance commit) (level : Level) (key : Nat) :
    (log.map fun commit => commit.note.consumes level key).sum ≤ 1 := by
  induction log generalizing first with
  | nil => exact Nat.zero_le 1
  | cons commit rest ih =>
    obtain ⟨rfl,later⟩ := path
    obtain ⟨advance,others⟩ := List.forall_mem_cons.mp advances
    rw [List.map_cons,List.sum_cons]
    rcases fresh_consumes advance level key with zero | ⟨one,-,after⟩
    · rw [zero,Nat.zero_add]
      exact ih later others
    · have unconsumed := passed_unconsumed later others level key (by omega)
      omega

theorem allocated_cleared {first last : Table Record} {log : List SettlementCommit} (path : Replays first log last) (keyed : first.Keyed)
    (advances : ∀ commit ∈ log,FreshAdvance commit) :
    (log.map fun commit => commit.note.allocated).sum = last.weigh Record.cleared - first.weigh Record.cleared := by
  induction log generalizing first with
  | nil =>
    cases path
    simp
  | cons commit rest ih =>
    obtain ⟨rfl,later⟩ := path
    obtain ⟨⟨made,fresh,data,settled,result,noted⟩,others⟩ := List.forall_mem_cons.mp advances
    have tail := ih later (applyWrites_keyed commit.writes keyed) others
    rw [noted] at made
    have step := advanced_cleared made keyed (fresh_rows noted fresh)
    rw [List.map_cons,List.sum_cons,tail,noted,Commit.after,step,Note.allocated]
    omega

theorem serve_advances {table : Table Record} (keyed : table.Keyed) (below : ∀ key ∈ table.map (·.1),key < nextId)
    {advances : List Advance} {turns : List Turn} {commit : SettlementCommit}
    (member : commit ∈ (serve table nextId (advances.map .advance) turns).log) (fresh : findsAsRead commit = true) : FreshAdvance commit := by
  obtain ⟨⟨call,inside,same⟩,made⟩ := serve_logged keyed below member
  obtain ⟨data,-,rfl⟩ := List.mem_map.mp inside
  refine ⟨made,fresh,?_⟩
  cases noted : commit.note with
  | advanced data settled result => exact ⟨data,settled,result,rfl⟩
  | rolledBack id guarded =>
    rw [noted] at same
    cases same

-- Payments that find their rows as they read them consume each leg at most once, report what
-- the rows have passed, and take no row back.
theorem fresh_advances_apart {table : Table Record} (keyed : table.Keyed) (below : ∀ key ∈ table.map (·.1),key < nextId)
    (advances : List Advance) (turns : List Turn)
    (fresh : ∀ commit ∈ (serve table nextId (advances.map .advance) turns).log,findsAsRead commit = true) :
    let run := serve table nextId (advances.map .advance) turns
    (∀ level key,(run.log.map fun commit => commit.note.consumes level key).sum ≤ 1) ∧
    (run.log.map fun commit => commit.note.allocated).sum = run.table.weigh Record.cleared - table.weigh Record.cleared ∧
    ∀ commit ∈ run.log,∀ key,stageAt commit.before key ≤ stageAt commit.after key := by
  have path := serve_replays table nextId (advances.map .advance) turns
  have advancing : ∀ commit ∈ (serve table nextId (advances.map .advance) turns).log,FreshAdvance commit :=
    fun commit member => serve_advances keyed below member (fresh commit member)
  exact ⟨consumed_once path advancing,allocated_cleared path keyed advancing,fun commit member => fresh_stays (advancing commit member)⟩

-- One open row of courier 7 and branch 3, two payments of the courier's leg and one of the branch's.
def openRow : OrderSettlement :=
  {courierId:=some 7,branchId:=some 3,marketId:=some 9,courierAmount:=100,branchAmount:=60,marketAmount:=50,status:=.pending,
   courierToBranchAt:=none,courierToBranchBy:=none,branchToHqAt:=none,branchToHqBy:=none,hqToMarketAt:=none,hqToMarketBy:=none,
   isDeleted:=false}
def courierPays (amount : Int) : Advance := ⟨.courierToBranch,some 7,amount,some 7,50⟩
def branchPays (amount : Int) : Advance := ⟨.branchToHq,some 3,amount,some 3,60⟩
def oneRow : Table Record := [(settlementKey 0,.settlement 0 openRow)]
def handovers : List Advance := [courierPays 100,courierPays 100,branchPays 60]

-- One after the other the second payment of the courier finds nothing to settle.
theorem fresh_advances_apart_in_turn :
    let run := serve oneRow 2 (handovers.map .advance) [.step 0 0,.step 0 0,.step 0 0,.step 2 0,.step 2 0,.step 2 0,.step 1 0,.step 1 0]
    run.log.map (·.note.allocated) = [100,60,0] ∧ (∀ level key,(run.log.map fun commit => commit.note.consumes level key).sum ≤ 1) ∧
    (run.log.map fun commit => commit.note.allocated).sum = run.table.weigh Record.cleared - oneRow.weigh Record.cleared ∧
    ∀ commit ∈ run.log,∀ key,stageAt commit.before key ≤ stageAt commit.after key := by
  refine ⟨by decide +kernel,fresh_advances_apart (by decide) (by decide) handovers _ (List.all_eq_true.mp ?_)⟩
  decide +kernel

-- Both payments read the open row; the second is counted too and takes the row back from the branch's stage.
theorem row_consumed_twice :
    let run := serve oneRow 2 (handovers.map .advance)
      [.step 1 0,.step 0 0,.step 0 0,.step 0 0,.step 2 0,.step 2 0,.step 2 0,.step 1 0,.step 1 0]
    (run.log.map fun commit => commit.note.consumes .courierToBranch (settlementKey 0)).sum = 2 ∧
    (run.log.map fun commit => commit.note.allocated).sum = 260 ∧ run.table.weigh Record.cleared - oneRow.weigh Record.cleared = 100 ∧
    run.log.map (fun commit => (stageAt commit.before (settlementKey 0),stageAt commit.after (settlementKey 0))) = [(0,1),(1,2),(2,1)] := by
  decide +kernel

end Elchi.Settlement
