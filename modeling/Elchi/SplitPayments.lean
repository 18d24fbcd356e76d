import Elchi.FreshAdvances
import Elchi.SoloRuns
namespace Elchi.Settlement
open RowLock Orders

-- Payments of one participant at one level, who made them and when.
structure Payment where
  amount : Int
  actor : Nat
  now : Nat
deriving DecidableEq, Repr
abbrev Ledger := Store Record OrderEvent
def Payment.advance (level : Level) (participant : Nat) (payment : Payment) : Advance :=
  ⟨level,some participant,payment.amount,some payment.actor,payment.now⟩

def allocatedOf : Option (Except RpcError Answer) → Int
  | some (.ok (.advanced result)) => result.allocated
  | _ => 0
-- One payment, and payments one after the other: what they allocate and what they leave stored.
def settle (level : Level) (participant : Nat) (payment : Payment) (ledger : Ledger) : Int × Ledger :=
  let done := (advanceSettlement (payment.advance level participant)).perform ledger
  (allocatedOf done.1,done.2)
def settleInTurn (level : Level) (participant : Nat) : List Payment → Ledger → Int × Ledger
  | [],ledger => (0,ledger)
  | payment :: rest,ledger =>
    let first := settle level participant payment ledger
    let later := settleInTurn level participant rest first.2
    (first.1 + later.1,later.2)

def queue (level : Level) (participant : Nat) (ledger : Ledger) : Table Record := byCreation (ledger.table.select (candidate level participant))
def paid (payments : List Payment) : Int := (payments.map (·.amount)).sum
def statusAt (ledger : Ledger) (key : Nat) : Option SettlementStatus := (rowAt ledger.table key).map (·.status)
def SameStatuses (left right : Ledger) : Prop := ∀ key,statusAt left key = statusAt right key

theorem leg_nonneg (level : Level) (entry : Nat × Record) : 0 ≤ legOf level entry := by
  unfold legOf
  cases entry.2.settlement? with
  | none => exact Int.le_refl 0
  | some row => exact Int.le_max_right _ _

theorem older_trans (a b c : Nat × Record) (ab : older a b = true) (bc : older b c = true) : older a c = true := by
  simp only [older,Bool.or_eq_true,Bool.and_eq_true,decide_eq_true_eq,beq_iff_eq] at ab bc ⊢
  omega
theorem older_total (a b : Nat × Record) : (older a b || older b a) = true := by
  simp only [older,Bool.or_eq_true,Bool.and_eq_true,decide_eq_true_eq,beq_iff_eq]
  omega
theorem older_antisymm {a b : Nat × Record} (ab : older a b = true) (ba : older b a = true) : a.1 = b.1 := by
  simp only [older,Bool.or_eq_true,Bool.and_eq_true,decide_eq_true_eq,beq_iff_eq] at ab ba
  omega

theorem keyed_entry {V : Type} {table : Table V} (keyed : table.Keyed) {a b : Nat × V} (inA : a ∈ table) (inB : b ∈ table) (same : a.1 = b.1) :
    a = b := by
  have first := (row_exact keyed).mp (show (a.1,a.2) ∈ table from inA)
  have second := (row_exact keyed).mp (show (b.1,b.2) ∈ table from inB)
  rw [same,second] at first
  exact Prod.ext same (Option.some.inj first).symm

-- The order of the rows that stay does not depend on the ones that go.
theorem byCreation_filter {rows : Table Record} (keyed : rows.Keyed) (stays : Nat × Record → Bool) :
    byCreation (rows.filter stays) = (byCreation rows).filter stays := by
  have sorted : ∀ some : Table Record,(byCreation some).Pairwise fun a b => older a b = true :=
    fun some => List.pairwise_mergeSort older_trans older_total some
  have same : (byCreation (rows.filter stays)).Perm ((byCreation rows).filter stays) :=
    (List.mergeSort_perm _ _).trans ((List.mergeSort_perm rows older).filter stays).symm
  apply List.Perm.eq_of_pairwise ?_ (sorted _) ((sorted rows).filter _) same
  intro a b inA inB ab ba
  have here := List.mem_of_mem_filter (List.mem_mergeSort.mp inA)
  have there := List.mem_mergeSort.mp (List.mem_of_mem_filter inB)
  exact keyed_entry keyed here there (older_antisymm ab ba)

theorem lockRows_perform (keys : List Nat) (next : Request) (ledger : Ledger) : (lockRows keys next).perform ledger = next.perform ledger := by
  induction keys with
  | nil => rfl
  | cons key rest ih =>
    rw [lockRows,Prog.perform]
    split
    · exact ih
    · exact ih

section Queue
variable {level : Level} {participant : Nat}

def taken (level : Level) (participant : Nat) (payment : Payment) (ledger : Ledger) : Table Record :=
  Fifo.pay (legOf level) payment.amount (queue level participant ledger)
def save (level : Level) (participant : Nat) (payment : Payment) : Record → Record :=
  advanceRow (payment.advance level participant) payment.actor

-- What one payment does: it allocates, and stamps, what it covers of the queue.
theorem settle_spec (payment : Payment) (ledger : Ledger) : settle level participant payment ledger =
    (Fifo.total (legOf level) (taken level participant payment ledger),
      {ledger with table:=applyWrites ledger.table (((taken level participant payment ledger).map (·.1)).map fun key =>
        .update key (save level participant payment))}) := by
  unfold settle advanceSettlement taken Fifo.pay
  by_cases positive : payment.amount > 0
  · simp only [Payment.advance,positive,if_true,runFifoSettlement,Prog.perform,lockRows_perform,List.all_nil,allocatedOf,List.append_nil,
      List.map_map,queue]
    rfl
  · simp only [Payment.advance,positive,if_false]
    rfl

theorem queue_keys {ledger : Ledger} (keyed : ledger.table.Keyed) : ((queue level participant ledger).map (·.1)).Nodup :=
  sorted_keys (select_keyed keyed _)
theorem taken_front (payment : Payment) (ledger : Ledger) : taken level participant payment ledger <+: queue level participant ledger :=
  Fifo.pay_front _ _
theorem taken_keys {ledger : Ledger} (keyed : ledger.table.Keyed) (payment : Payment) :
    ((taken level participant payment ledger).map (·.1)).Nodup :=
  (queue_keys keyed).sublist ((taken_front payment ledger).sublist.map _)

theorem saved_closed (payment : Payment) (key : Nat) (record : Record) :
    candidate level participant key (save level participant payment record) = false := by
  cases record with
  | order row => rfl
  | settlement createdAt row => cases level with
    | _ => simp [candidate,save,advanceRow,onSettlement,Record.settlement?,Payment.advance,Level.stamp,Level.fromStatus]

theorem select_updates {table : Table Record} (keys : List Nat) {sel : Nat → Record → Bool} {save : Record → Record}
    (closed : ∀ key record,sel key (save record) = false) :
    Table.select (table.map fun entry => if entry.1 ∈ keys then (entry.1,save entry.2) else entry) sel =
      (table.select sel).filter fun entry => !decide (entry.1 ∈ keys) := by
  induction table with
  | nil => rfl
  | cons entry rest ih =>
    simp only [Table.select] at ih ⊢
    rw [List.map_cons,List.filter_cons,List.filter_cons,ih]
    by_cases gone : entry.1 ∈ keys
    · rw [if_pos gone,closed,if_neg Bool.false_ne_true]
      split
      · rw [List.filter_cons_of_neg (by simp [gone])]
      · rfl
    · rw [if_neg gone]
      split
      · rw [List.filter_cons_of_pos (by simp [gone])]
      · rfl

theorem front_dropped {V : Type} {front rows : Table V} (inside : front <+: rows) (distinct : (rows.map (·.1)).Nodup) :
    (rows.filter fun entry => !decide (entry.1 ∈ front.map (·.1))) = rows.drop front.length := by
  obtain ⟨rest,rfl⟩ := inside
  rw [List.map_append,List.nodup_append] at distinct
  rw [List.filter_append,List.drop_left]
  have gone : (front.filter fun entry => !decide (entry.1 ∈ front.map (·.1))) = [] := by
    apply List.filter_eq_nil_iff.mpr
    intro entry member
    simpa using ⟨entry.2,member⟩
  have stays : (rest.filter fun entry => !decide (entry.1 ∈ front.map (·.1))) = rest := by
    apply List.filter_eq_self.mpr
    intro entry member
    simp only [Bool.not_eq_true',decide_eq_false_iff_not]
    intro early
    exact distinct.2.2 entry.1 early entry.1 (List.mem_map_of_mem member) rfl
  rw [gone,stays,List.nil_append]

-- What it leaves of the queue.
theorem settle_queue {ledger : Ledger} (keyed : ledger.table.Keyed) (payment : Payment) :
    queue level participant (settle level participant payment ledger).2 =
      (queue level participant ledger).drop (taken level participant payment ledger).length := by
  rw [settle_spec,queue,updates_map (taken_keys keyed payment) keyed,select_updates _ (saved_closed payment),
    byCreation_filter (select_keyed keyed _)]
  exact front_dropped (taken_front payment ledger) (queue_keys keyed)

theorem settle_keyed {ledger : Ledger} (keyed : ledger.table.Keyed) (payment : Payment) :
    (settle level participant payment ledger).2.table.Keyed := by
  rw [settle_spec]
  exact applyWrites_keyed _ keyed

theorem queue_row {ledger : Ledger} (keyed : ledger.table.Keyed) {entry : Nat × Record} (member : entry ∈ queue level participant ledger) :
    ∃ row,rowAt ledger.table entry.1 = some row ∧ row.status = level.fromStatus := by
  obtain ⟨stored,selected⟩ := select_row keyed (List.mem_mergeSort.mp member)
  simp only [candidate] at selected
  cases found : entry.2.settlement? with
  | none => simp [found] at selected
  | some row =>
    simp only [found,Option.any_some,Bool.and_eq_true,beq_iff_eq] at selected
    exact ⟨row,by rw [rowAt,stored,Option.bind_some,found],selected.1.2⟩

theorem settle_status {ledger : Ledger} (keyed : ledger.table.Keyed) (payment : Payment) (key : Nat) :
    statusAt (settle level participant payment ledger).2 key =
      if key ∈ (taken level participant payment ledger).map (·.1) then some level.toStatus else statusAt ledger key := by
  rw [settle_spec,statusAt,rowAt,applyWrites_row,written_updates (taken_keys keyed payment)]
  split
  · rename_i member
    obtain ⟨entry,inside,rfl⟩ := List.mem_map.mp member
    obtain ⟨row,found,-⟩ := queue_row keyed ((taken_front payment ledger).subset inside)
    obtain ⟨createdAt,stored⟩ := rowAt_record found
    simp [stored,save,advanceRow,onSettlement,Record.settlement?,Payment.advance]
  · rfl

def takenInTurn (level : Level) (participant : Nat) (payments : List Payment) (ledger : Ledger) : Table Record :=
  Fifo.payInTurn (legOf level) (payments.map (·.amount)) (queue level participant ledger)

-- What payments in turn do, by induction on the payments.
theorem settleInTurn_spec {ledger : Ledger} (keyed : ledger.table.Keyed) (payments : List Payment) :
    (settleInTurn level participant payments ledger).1 = Fifo.total (legOf level) (takenInTurn level participant payments ledger) ∧
    queue level participant (settleInTurn level participant payments ledger).2 =
      (queue level participant ledger).drop (takenInTurn level participant payments ledger).length ∧
    ∀ key,statusAt (settleInTurn level participant payments ledger).2 key =
      if key ∈ (takenInTurn level participant payments ledger).map (·.1) then some level.toStatus else statusAt ledger key := by
  induction payments generalizing ledger with
  | nil => exact ⟨rfl,rfl,fun key => rfl⟩
  | cons payment rest ih =>
    obtain ⟨allocated,left,status⟩ := ih (settle_keyed keyed payment)
    have front : takenInTurn level participant (payment :: rest) ledger = taken level participant payment ledger ++
        takenInTurn level participant rest (settle level participant payment ledger).2 := by
      simp only [takenInTurn,settle_queue keyed]
      rfl
    rw [front]
    refine ⟨?_,?_,?_⟩
    · rw [Fifo.total_append,←allocated]
      simp only [settleInTurn]
      rw [settle_spec]
    · simp only [settleInTurn]
      rw [left,settle_queue keyed,List.drop_drop,List.length_append]
    · intro key
      simp only [settleInTurn]
      rw [status key,settle_status keyed,List.map_append]
      by_cases late : key ∈ (takenInTurn level participant rest (settle level participant payment ledger).2).map (·.1)
      · rw [if_pos late,if_pos (List.mem_append_right _ late)]
      · rw [if_neg late]
        by_cases early : key ∈ (taken level participant payment ledger).map (·.1)
        · rw [if_pos early,if_pos (List.mem_append_left _ early)]
        · rw [if_neg early,if_neg fun either => (List.mem_append.mp either).elim early late]

-- The two ways leave the same statuses exactly when they take the same rows.
theorem same_statuses {left right ledger : Ledger} {early late : Table Record} (keyed : ledger.table.Keyed)
    (leftStatus : ∀ key,statusAt left key = if key ∈ early.map (·.1) then some level.toStatus else statusAt ledger key)
    (rightStatus : ∀ key,statusAt right key = if key ∈ late.map (·.1) then some level.toStatus else statusAt ledger key)
    (within : early <+: late) (front : late <+: queue level participant ledger) : SameStatuses left right ↔ early = late := by
  constructor
  · intro same
    obtain ⟨more,rfl⟩ := within
    cases more with
    | nil => exact (List.append_nil early).symm
    | cons entry others =>
      have here := same entry.1
      have distinct := (queue_keys keyed).sublist (front.sublist.map _)
      have absent : entry.1 ∉ early.map (·.1) := by
        rw [List.map_append,List.nodup_append] at distinct
        intro member
        exact distinct.2.2 entry.1 member entry.1 (by simp) rfl
      obtain ⟨row,found,first⟩ := queue_row keyed (front.subset (List.mem_append_right early List.mem_cons_self))
      rw [leftStatus,rightStatus,if_neg absent,if_pos (by simp),statusAt,found,Option.map_some,first] at here
      cases level with
      | _ => cases here
  · rintro rfl key
    exact (leftStatus key).trans (rightStatus key).symm

-- Every beginning of the queue that the sum covers can be divided, in order, among the payments.
def Divisible (level : Level) (participant : Nat) (payments : List Payment) (ledger : Ledger) : Prop :=
  ∀ group,group <+: queue level participant ledger → Fifo.Covers (legOf level) (paid payments) group →
    Fifo.Divides (legOf level) (payments.map (·.amount)) group

end Queue

-- Two open rows of courier 7, the older one with a leg of 100 and the other with one of 60.
def twoRows : Ledger := ⟨[(settlementKey 0,.settlement 0 openRow),(settlementKey 1,.settlement 5 {openRow with courierAmount:=60})],[],4⟩
def handover (amount : Int) : Payment := ⟨amount,7,50⟩

theorem twoRows_queue : queue .courierToBranch 7 twoRows = twoRows.table := List.mergeSort_of_pairwise (by decide)

-- Two halves of a leg settle nothing, and both are gone.
def halvedRow : Ledger := ⟨oneRow,[],2⟩
end Elchi.Settlement
