import Elchi.MoneyConservation
import Elchi.SplitPayments
namespace Elchi
open RowLock Finance Orders

-- ensureMainCashbox: the MAIN cashbox, or a new empty one.
def mainBalance (cashboxes : Table Row) : Int :=
  match cashboxes.select (cashboxRow (byUserType mainCashboxUserId .main)) with
  | (_,.cashbox box) :: _ => box.balance
  | _ => 0
def activeBalance (type : CashboxType) : Row → Int
  | .cashbox box => if box.cashboxType = type ∧ box.isDeleted = false then box.balance else 0
  | .userSalary _ => 0
def sumCashboxBalanceByType (cashboxes : Table Row) (type : CashboxType) : Int := cashboxes.weigh (activeBalance type)

-- getFinancialBalanceSettlementSummary: one amount for each branch, never below zero.
def receivable (row : OrderSettlement) : Bool :=
  !row.isDeleted && row.branchId.isSome && (row.status == .pending || row.status == .courierSettled)
def branchAmountOf (settlements : List OrderSettlement) (branchId : Nat) : Int :=
  (settlements.map fun row => if receivable row = true ∧ row.branchId = some branchId then row.branchAmount else 0).sum
def branchReceivable (settlements : List OrderSettlement) : Int :=
  (((settlements.filter receivable).filterMap (·.branchId)).dedup.map fun branchId => max (branchAmountOf settlements branchId) 0).sum

def currentSituation (cashboxes : Table Row) (settlements : List OrderSettlement) : Int :=
  let marketPayable := max (sumCashboxBalanceByType cashboxes .forMarket) 0
  mainBalance cashboxes + (max (branchReceivable settlements) 0 - marketPayable)

-- What a row adds to the receivable; recordSaleSettlement never stores a negative amount.
def dueOf (row : OrderSettlement) : Int := if receivable row then row.branchAmount else 0
def Owed (settlements : List OrderSettlement) : Prop := ∀ row ∈ settlements,0 ≤ row.branchAmount

theorem dueOf_nonneg {row : OrderSettlement} (owed : 0 ≤ row.branchAmount) : 0 ≤ dueOf row := by
  unfold dueOf
  split
  · exact owed
  · exact Int.le_refl 0

theorem sum_nonneg_of {values : List Int} (each : ∀ value ∈ values,0 ≤ value) : 0 ≤ values.sum := by
  induction values with
  | nil => exact Int.le_refl 0
  | cons value rest ih =>
    have first := each value List.mem_cons_self
    have later := ih fun other member => each other (.tail _ member)
    rw [List.sum_cons]
    omega

theorem branchAmountOf_nonneg {settlements : List OrderSettlement} (owed : Owed settlements) (branchId : Nat) :
    0 ≤ branchAmountOf settlements branchId := by
  apply sum_nonneg_of
  intro value member
  obtain ⟨row,listed,rfl⟩ := List.mem_map.mp member
  split
  · exact owed row listed
  · exact Int.le_refl 0

theorem due_of_branch (row : OrderSettlement) (branchId : Nat) :
    (if receivable row = true ∧ row.branchId = some branchId then row.branchAmount else 0) =
      if row.branchId.getD 0 = branchId then dueOf row else 0 := by
  unfold dueOf
  cases named : row.branchId with
  | none => simp [receivable,named]
  | some own =>
    by_cases same : own = branchId
    · simp [same]
    · simp [same]

-- Without negative amounts the branches' sums make one sum over the rows.
theorem branchReceivable_sum {settlements : List OrderSettlement} (owed : Owed settlements) :
    branchReceivable settlements = (settlements.map dueOf).sum := by
  have plain : (fun branchId => max (branchAmountOf settlements branchId) 0) = fun branchId =>
      (settlements.map fun row => if row.branchId.getD 0 = branchId then dueOf row else 0).sum := by
    funext branchId
    rw [Int.max_eq_left (branchAmountOf_nonneg owed branchId),branchAmountOf]
    simp only [due_of_branch]
  unfold branchReceivable
  rw [plain,sum_groups (fun row : OrderSettlement => row.branchId.getD 0) dueOf (List.nodup_dedup _)]
  congr 1
  apply List.map_congr_left
  intro row listed
  split
  · rfl
  · rename_i absent
    unfold dueOf
    split
    · rename_i due
      have named : row.branchId.isSome = true := by
        simp only [receivable,Bool.and_eq_true] at due
        exact due.1.2
      obtain ⟨branchId,own⟩ := Option.isSome_iff_exists.mp named
      exfalso
      apply absent
      rw [own,List.mem_dedup]
      exact List.mem_filterMap.mpr ⟨row,List.mem_filter.mpr ⟨listed,due⟩,own⟩
    · rfl

theorem receivable_clamp {settlements : List OrderSettlement} (owed : Owed settlements) :
    max (branchReceivable settlements) 0 = (settlements.map dueOf).sum := by
  rw [branchReceivable_sum owed]
  apply Int.max_eq_left
  apply sum_nonneg_of
  intro value member
  obtain ⟨row,listed,rfl⟩ := List.mem_map.mp member
  exact dueOf_nonneg (owed row listed)

section Rows
variable {V : Type} (settled : V → Option OrderSettlement) {table : Table V}

-- The settlement rows of a table, and what they are due together.
def settlementRows (table : Table V) : List OrderSettlement := table.filterMap fun entry => settled entry.2
def rowDue (value : V) : Int := (settled value).elim 0 dueOf

theorem settlementRows_due (table : Table V) : ((settlementRows settled table).map dueOf).sum = table.weigh (rowDue settled) := by
  unfold settlementRows Table.weigh
  induction table with
  | nil => rfl
  | cons entry rest ih =>
    rw [List.filterMap_cons,List.map_cons,List.sum_cons,←ih]
    cases found : settled entry.2 with
    | none => simp [rowDue,found]
    | some row => simp [rowDue,found]

theorem settlementRows_owed (keyed : table.Keyed) : Owed (settlementRows settled table) ↔
    ∀ key value,table.row key = some value → ∀ row,settled value = some row → 0 ≤ row.branchAmount := by
  constructor
  · intro owed key value stored row found
    exact owed row (List.mem_filterMap.mpr ⟨(key,value),(row_exact keyed).mpr stored,found⟩)
  · intro each row member
    obtain ⟨entry,listed,found⟩ := List.mem_filterMap.mp member
    exact each entry.1 entry.2 ((row_exact keyed).mp listed) row found

end Rows

section Cashboxes

-- Cashboxes as the service keeps them: none is ever deleted, and one is MAIN.
structure Tidy (cashboxes : Table Row) : Prop where
  live : ∀ key box,cashboxes.row key = some (.cashbox box) → box.isDeleted = false
  oneMain : ∀ left right a b,cashboxes.row left = some (.cashbox a) → cashboxes.row right = some (.cashbox b) →
    a.userId = mainCashboxUserId ∧ a.cashboxType = .main → b.userId = mainCashboxUserId ∧ b.cashboxType = .main → left = right

variable {cashboxes : Table Row}

theorem mainBalance_exact (keyed : cashboxes.Keyed) (tidy : Tidy cashboxes) :
    mainBalance cashboxes = balanceOf cashboxes mainCashboxUserId .main := by
  unfold mainBalance
  split
  · rename_i key box rest found
    have listed : (key,Row.cashbox box) ∈ cashboxes.select (cashboxRow (byUserType mainCashboxUserId .main)) := by simp [found]
    obtain ⟨stored,selected⟩ := select_row keyed listed
    have own := @byUserType_owner _ _ key box selected
    have only := @weigh_only Row (Row.holds mainCashboxUserId .main) _ keyed _ ((row_exact keyed).mpr stored) ?_
    · refine Eq.symm (only.trans ?_)
      simp [Row.holds,own]
    · intro other member different
      obtain ⟨otherKey,row⟩ := other
      cases row with
      | userSalary salary => rfl
      | cashbox another =>
        simp only [Row.holds]
        rw [if_neg]
        intro alsoMain
        exact different (tidy.oneMain _ _ _ _ ((row_exact keyed).mp member) stored alsoMain own)
  · rename_i nothing
    refine Eq.symm (weigh_nothing ?_)
    intro entry member
    obtain ⟨key,row⟩ := entry
    cases row with
    | userSalary salary => rfl
    | cashbox box =>
      simp only [Row.holds]
      rw [if_neg]
      intro main
      have live := tidy.live key box ((row_exact keyed).mp member)
      have listed : (key,Row.cashbox box) ∈ cashboxes.select (cashboxRow (byUserType mainCashboxUserId .main)) :=
        List.mem_filter.mpr ⟨member,by simp [cashboxRow,byUserType,main,live]⟩
      cases found : cashboxes.select (cashboxRow (byUserType mainCashboxUserId .main)) with
      | nil => simp [found] at listed
      | cons first rest =>
        obtain ⟨firstKey,firstRow⟩ := first
        cases firstRow with
        | cashbox chosen => exact nothing firstKey chosen rest found
        | userSalary salary =>
          have inside : (firstKey,Row.userSalary salary) ∈ cashboxes.select (cashboxRow (byUserType mainCashboxUserId .main)) := by
            simp [found]
          cases (List.mem_filter.mp inside).2

def rowUser : Row → Nat
  | .cashbox box => box.userId
  | .userSalary salary => salary.userId

theorem sumByType_exact (keyed : cashboxes.Keyed) (tidy : Tidy cashboxes) (type : CashboxType) {users : List Nat} (distinct : users.Nodup)
    (covers : ∀ entry ∈ cashboxes,rowUser entry.2 ∈ users) :
    sumCashboxBalanceByType cashboxes type = (users.map fun user => balanceOf cashboxes user type).sum := by
  have grouped := sum_groups (fun entry : Nat × Row => rowUser entry.2) (fun entry => activeBalance type entry.2) distinct cashboxes
  have all : (cashboxes.map fun entry => if rowUser entry.2 ∈ users then activeBalance type entry.2 else 0) =
      cashboxes.map fun entry => activeBalance type entry.2 :=
    List.map_congr_left fun entry member => if_pos (covers entry member)
  rw [all] at grouped
  refine grouped.symm.trans (congrArg List.sum (List.map_congr_left ?_))
  intro user _
  refine congrArg List.sum (List.map_congr_left ?_)
  intro entry member
  obtain ⟨key,row⟩ := entry
  cases row with
  | userSalary salary => simp [activeBalance,Row.holds]
  | cashbox box =>
    have live := tidy.live key box ((row_exact keyed).mp member)
    simp only [rowUser,activeBalance,Row.holds,live]
    by_cases own : box.userId = user
    · simp [own]
    · simp [own]

-- What moves make of all cashboxes of one type together.
def movedOf (moves : List Move) (type : CashboxType) : Int := (moves.map fun move => if move.cashboxType = type then move.signed else 0).sum

theorem moved_users (moves : List Move) (type : CashboxType) {users : List Nat} (distinct : users.Nodup)
    (covers : ∀ move ∈ moves,move.userId ∈ users) : (users.map fun user => moved moves user type).sum = movedOf moves type := by
  have grouped := sum_groups (fun move : Move => move.userId) (fun move => if move.cashboxType = type then move.signed else 0) distinct moves
  have all : (moves.map fun move => if move.userId ∈ users then if move.cashboxType = type then move.signed else 0 else 0) =
      moves.map fun move => if move.cashboxType = type then move.signed else 0 :=
    List.map_congr_left fun move member => if_pos (covers move member)
  rw [all] at grouped
  refine Eq.trans (congrArg List.sum (List.map_congr_left ?_)) grouped
  intro user _
  refine congrArg List.sum (List.map_congr_left ?_)
  intro move _
  unfold Move.on
  by_cases own : move.userId = user
  · simp [own]
  · simp [own]

theorem cashboxes_moved {before after : Table Row} {moves : List Move} (keyed : before.Keyed) (keyed' : after.Keyed) (tidy : Tidy before)
    (tidy' : Tidy after) (shift : ∀ user type,balanceOf after user type = balanceOf before user type + moved moves user type) :
    mainBalance after = mainBalance before + moved moves mainCashboxUserId .main ∧
      sumCashboxBalanceByType after .forMarket = sumCashboxBalanceByType before .forMarket + movedOf moves .forMarket := by
  constructor
  · rw [mainBalance_exact keyed tidy,mainBalance_exact keyed' tidy',shift]
  · let users := ((before ++ after).map (fun entry => rowUser entry.2) ++ moves.map (·.userId)).dedup
    have distinct : users.Nodup := List.nodup_dedup _
    have inBefore : ∀ entry ∈ before,rowUser entry.2 ∈ users := fun entry member =>
      List.mem_dedup.mpr (List.mem_append_left _ (List.mem_map.mpr ⟨entry,List.mem_append_left _ member,rfl⟩))
    have inAfter : ∀ entry ∈ after,rowUser entry.2 ∈ users := fun entry member =>
      List.mem_dedup.mpr (List.mem_append_left _ (List.mem_map.mpr ⟨entry,List.mem_append_right _ member,rfl⟩))
    have inMoves : ∀ move ∈ moves,move.userId ∈ users := fun move member =>
      List.mem_dedup.mpr (List.mem_append_right _ (List.mem_map.mpr ⟨move,member,rfl⟩))
    rw [sumByType_exact keyed tidy _ distinct inBefore,sumByType_exact keyed' tidy' _ distinct inAfter,
      ←moved_users moves .forMarket distinct inMoves,←List.sum_map_add]
    simp only [shift]

end Cashboxes

end Elchi
