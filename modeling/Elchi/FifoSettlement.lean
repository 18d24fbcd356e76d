import Elchi.SplitPayments
namespace Elchi.FifoSettlement
open RowLock Orders Settlement

-- ORDER BY createdAt ASC; rows of one time come in any order.
structure CreationOrder where
  sort : Table Record → Table Record
  perm : ∀ rows,(sort rows).Perm rows
  ascending : ∀ rows,(sort rows).Pairwise fun older newer => older.2.createdAt ≤ newer.2.createdAt

-- The settlement rows and the posted cashbox legs, an order and an amount each.
structure Ledger where
  rows : Table Record
  legs : List (Nat × Int)
-- How far the loop of runFifoSettlement is, inside its transaction.
structure Loop where
  ledger : Ledger
  statements : Nat
  remaining : Int
  settledOrderIds : List Nat
  allocated : Int

def orderOf (settlement : Nat × Record) : Nat := settlement.1 / 2
def Ledger.advance (data : Advance) (actor key : Nat) (ledger : Ledger) : Ledger :=
  {ledger with rows:=(Write.update key (advanceRow data actor)).apply ledger.rows}
def Ledger.post (orderId : Nat) (amount : Int) (ledger : Ledger) : Ledger := {ledger with legs:=ledger.legs ++ [(orderId,amount)]}

-- Any statement of the transaction may fail, with what the handler makes of its error.
section Transaction
variable (order : CreationOrder) (fault : Nat → Option RpcError) (data : Advance)

def execute (write : Ledger → Ledger) (loop : Loop) : Except RpcError Loop :=
  match fault loop.statements with
  | some error => .error error
  | none => .ok {loop with ledger:=write loop.ledger,statements:=loop.statements+1}
def takeLeg (orderId : Nat) (legAmount : Int) (loop : Loop) : Except RpcError Loop :=
  if legAmount > 0 then
    (execute fault (·.post orderId legAmount) loop).map fun loop =>
      {loop with remaining:=loop.remaining - legAmount,allocated:=loop.allocated + legAmount}
  else .ok loop
-- 'system' is no bigint, so without a requester the UPDATE itself fails.
def settleRow (settlement : Nat × Record) (loop : Loop) : Except RpcError Loop :=
  match data.requesterId with
  | none => .error (badRequest "ID qiymatlari raqam ko'rinishida bo'lishi kerak")
  | some actor => do
    let updated ← execute fault (·.advance data actor settlement.1) loop
    let posted ← takeLeg fault (orderOf settlement) (legOf data.level settlement) updated
    return {posted with settledOrderIds:=posted.settledOrderIds ++ [orderOf settlement]}
def settleRows : Table Record → Loop → Except RpcError Loop
  | [],loop => .ok loop
  | settlement :: rest,loop =>
    if legOf data.level settlement > loop.remaining ∧ legOf data.level settlement > 0 then .ok loop
    else (settleRow fault data settlement loop).bind (settleRows rest)
def candidates (participant : Nat) (ledger : Ledger) : Table Record := order.sort (ledger.rows.select (candidate data.level participant))
def transaction (participant : Nat) (lumpSum : Int) (ledger : Ledger) : Except RpcError Loop := do
  let found ← execute fault id ⟨ledger,0,lumpSum,[],0⟩
  let settled ← settleRows fault data (candidates order data participant ledger) found
  execute fault id settled
-- The transaction is committed, or rolled back.
def runFifoSettlement (ledger : Ledger) : Ledger × Except RpcError AdvanceResult :=
  let lumpSum := max data.amount 0
  match data.matchValue with
  | none => (ledger,.ok ⟨[],0,lumpSum⟩)
  | some participant =>
    if lumpSum ≤ 0 then (ledger,.ok ⟨[],0,lumpSum⟩)
    else match transaction order fault data participant lumpSum ledger with
    | .error error => (ledger,.error error)
    | .ok loop => (loop.ledger,.ok ⟨loop.settledOrderIds,loop.allocated,max (lumpSum - loop.allocated) 0⟩)

end Transaction

-- A beginning of the candidates is settled, and nothing else happens.
structure Settles (data : Advance) (queue settled : Table Record) (before after : Ledger) (result : AdvanceResult) : Prop where
  front : settled <+: queue
  affordable : Fifo.total (legOf data.level) settled ≤ data.amount
  longest : ∀ group,group <+: queue → Fifo.total (legOf data.level) group ≤ data.amount → group <+: settled
  orders : result.settledOrderIds = settled.map orderOf
  allocated : result.allocated = Fifo.total (legOf data.level) settled
  leftover : result.leftover = data.amount - result.allocated ∧ 0 ≤ result.leftover
  stopped : ∀ next ∈ (queue.drop settled.length).head?,result.leftover < legOf data.level next
  legs : after.legs = before.legs ++ (settled.filter fun entry => 0 < legOf data.level entry).map fun entry => (orderOf entry,legOf data.level entry)
  moved : ∀ entry ∈ settled,∃ createdAt row actor,data.requesterId = some actor ∧ entry.2 = .settlement createdAt row ∧
    row.status = data.level.fromStatus ∧ after.rows.row entry.1 = some (.settlement createdAt (data.level.stamp data.now actor row)) ∧
    (data.level.stamp data.now actor row).status = data.level.toStatus
  others : ∀ key,key ∉ settled.map (·.1) → after.rows.row key = before.rows.row key

section Loop
variable {fault : Nat → Option RpcError} {data : Advance} {loop final : Loop}

theorem legOf_nonneg (level : Level) (entry : Nat × Record) : 0 ≤ legOf level entry := by
  unfold legOf
  cases entry.2.settlement? with
  | none => exact Int.le_refl 0
  | some row => exact Int.le_max_right _ _
theorem execute_ok {write : Ledger → Ledger} (executed : execute fault write loop = .ok final) :
    fault loop.statements = none ∧ final = {loop with ledger:=write loop.ledger,statements:=loop.statements+1} := by
  unfold execute at executed
  split at executed
  · cases executed
  · rename_i free
    exact ⟨free,(Except.ok.inj executed).symm⟩
theorem takeLeg_ok {orderId : Nat} {legAmount : Int} (nonneg : 0 ≤ legAmount) (taken : takeLeg fault orderId legAmount loop = .ok final) :
    final.ledger.rows = loop.ledger.rows ∧
    final.ledger.legs = loop.ledger.legs ++ (if 0 < legAmount then [(orderId,legAmount)] else []) ∧
    final.remaining = loop.remaining - legAmount ∧ final.allocated = loop.allocated + legAmount ∧
    final.settledOrderIds = loop.settledOrderIds := by
  unfold takeLeg at taken
  split at taken
  · rename_i positive
    cases executed : execute fault (·.post orderId legAmount) loop with
    | error error => simp [executed,Except.map] at taken
    | ok posted =>
      obtain ⟨-,rfl⟩ := execute_ok executed
      simp only [executed,Except.map,Except.ok.injEq] at taken
      subst taken
      refine ⟨rfl,?_,rfl,rfl,rfl⟩
      rw [if_pos positive]
      rfl
  · rename_i zero
    cases taken
    have none : legAmount = 0 := by omega
    simp [none]
theorem settleRow_ok {settlement : Nat × Record} (settled : settleRow fault data settlement loop = .ok final) :
    ∃ actor,data.requesterId = some actor ∧
    final.ledger.rows = (Write.update settlement.1 (advanceRow data actor)).apply loop.ledger.rows ∧
    final.ledger.legs = loop.ledger.legs ++ (if 0 < legOf data.level settlement then [(orderOf settlement,legOf data.level settlement)] else []) ∧
    final.remaining = loop.remaining - legOf data.level settlement ∧ final.allocated = loop.allocated + legOf data.level settlement ∧
    final.settledOrderIds = loop.settledOrderIds ++ [orderOf settlement] := by
  unfold settleRow at settled
  split at settled
  · cases settled
  · rename_i actor known
    cases executed : execute fault (·.advance data actor settlement.1) loop with
    | error error =>
      rw [executed] at settled
      cases settled
    | ok updated =>
      cases taken : takeLeg fault (orderOf settlement) (legOf data.level settlement) updated with
      | error error =>
        rw [executed] at settled
        simp only [bind,Except.bind,taken] at settled
        cases settled
      | ok posted =>
        rw [executed] at settled
        simp only [bind,Except.bind,taken,pure,Except.pure,Except.ok.injEq] at settled
        obtain ⟨-,rfl⟩ := execute_ok executed
        obtain ⟨rows,legs,remaining,allocated,orders⟩ := takeLeg_ok (legOf_nonneg data.level settlement) taken
        subst settled
        exact ⟨actor,known,rows,legs,remaining,allocated,by rw [orders]⟩
-- The loop settles what `fifo` takes of the rows before it.
theorem settleRows_ok {queue : Table Record} (settled : settleRows fault data queue loop = .ok final) :
    final.settledOrderIds = loop.settledOrderIds ++ (Fifo.fifo (legOf data.level) loop.remaining queue).map orderOf ∧
    final.allocated = loop.allocated + Fifo.total (legOf data.level) (Fifo.fifo (legOf data.level) loop.remaining queue) ∧
    final.ledger.legs = loop.ledger.legs ++ ((Fifo.fifo (legOf data.level) loop.remaining queue).filter fun entry => 0 < legOf data.level entry).map
      (fun entry => (orderOf entry,legOf data.level entry)) ∧
    (Fifo.fifo (legOf data.level) loop.remaining queue = [] ∧ final.ledger.rows = loop.ledger.rows ∨
      ∃ actor,data.requesterId = some actor ∧ final.ledger.rows = applyWrites loop.ledger.rows
        ((Fifo.fifo (legOf data.level) loop.remaining queue).map fun entry => .update entry.1 (advanceRow data actor))) := by
  induction queue generalizing loop with
  | nil =>
    cases settled
    simp [Fifo.fifo]
  | cons settlement rest ih =>
    unfold settleRows at settled
    unfold Fifo.fifo
    split at settled
    · rename_i dear
      cases settled
      simp [dear]
    · rename_i fits
      cases here : settleRow fault data settlement loop with
      | error error => simp [here,Except.bind] at settled
      | ok next =>
        simp only [here,Except.bind] at settled
        obtain ⟨actor,known,rows,legs,remaining,allocated,orders⟩ := settleRow_ok here
        obtain ⟨laterOrders,laterAllocated,laterLegs,laterRows⟩ := ih settled
        rw [remaining] at laterOrders laterAllocated laterLegs laterRows
        rw [if_neg fits]
        refine ⟨?_,?_,?_,.inr ⟨actor,known,?_⟩⟩
        · rw [laterOrders,orders]
          simp
        · rw [laterAllocated,allocated,Fifo.total_cons]
          omega
        · rw [laterLegs,legs,List.filter_cons]
          split
          · rename_i positive
            simp [positive]
          · rename_i zero
            simp [zero]
        · obtain ⟨none,same⟩ | ⟨other,known',same⟩ := laterRows
          · rw [none,same,rows]
            rfl
          · cases known.symm.trans known'
            rw [same,rows]
            rfl

-- Without a failing statement a known requester's loop reaches its end.
theorem execute_total (free : ∀ statement,fault statement = none) (write : Ledger → Ledger) (loop : Loop) :
    ∃ final,execute fault write loop = .ok final := by
  unfold execute
  rw [free]
  exact ⟨_,rfl⟩
theorem takeLeg_total (free : ∀ statement,fault statement = none) (orderId : Nat) (legAmount : Int) (loop : Loop) :
    ∃ final,takeLeg fault orderId legAmount loop = .ok final := by
  obtain ⟨posted,here⟩ := execute_total free (·.post orderId legAmount) loop
  unfold takeLeg
  split
  · rw [here]
    exact ⟨_,rfl⟩
  · exact ⟨loop,rfl⟩
theorem settleRow_total (free : ∀ statement,fault statement = none) (known : data.requesterId = some actor) (settlement : Nat × Record)
    (loop : Loop) : ∃ final,settleRow fault data settlement loop = .ok final := by
  obtain ⟨updated,first⟩ := execute_total free (·.advance data actor settlement.1) loop
  obtain ⟨posted,second⟩ := takeLeg_total free (orderOf settlement) (legOf data.level settlement) updated
  unfold settleRow
  simp only [known,first,second,bind,Except.bind]
  exact ⟨_,rfl⟩
theorem settleRows_total (free : ∀ statement,fault statement = none) (known : data.requesterId = some actor) (queue : Table Record)
    (loop : Loop) : ∃ final,settleRows fault data queue loop = .ok final := by
  induction queue generalizing loop with
  | nil => exact ⟨loop,rfl⟩
  | cons settlement rest ih =>
    unfold settleRows
    split
    · exact ⟨loop,rfl⟩
    · obtain ⟨next,here⟩ := settleRow_total free known settlement loop
      simp only [here,Except.bind]
      exact ih next
theorem transaction_total {order : CreationOrder} (free : ∀ statement,fault statement = none) (known : data.requesterId = some actor)
    (participant : Nat) (lumpSum : Int) (before : Ledger) : ∃ final,transaction order fault data participant lumpSum before = .ok final := by
  obtain ⟨found,first⟩ := execute_total free id ⟨before,0,lumpSum,[],0⟩
  obtain ⟨settled,looped⟩ := settleRows_total free known (candidates order data participant before) found
  unfold transaction
  simp only [first,looped,bind,Except.bind]
  exact execute_total free id settled

end Loop

section Runs
variable {order : CreationOrder} {fault : Nat → Option RpcError} {data : Advance} {participant : Nat} {before after : Ledger} {final : Loop}

theorem transaction_ok {lumpSum : Int} (ran : transaction order fault data participant lumpSum before = .ok final) :
    ∃ found settled,settleRows fault data (candidates order data participant before) found = .ok settled ∧
      found.ledger = before ∧ found.remaining = lumpSum ∧ found.settledOrderIds = [] ∧ found.allocated = 0 ∧
      final.ledger = settled.ledger ∧ final.settledOrderIds = settled.settledOrderIds ∧ final.allocated = settled.allocated := by
  unfold transaction at ran
  cases read : execute fault id ⟨before,0,lumpSum,[],0⟩ with
  | error error =>
    rw [read] at ran
    cases ran
  | ok found =>
    rw [read] at ran
    cases looped : settleRows fault data (candidates order data participant before) found with
    | error error =>
      simp only [bind,Except.bind,looped] at ran
      cases ran
    | ok settled =>
      simp only [bind,Except.bind,looped] at ran
      obtain ⟨-,rfl⟩ := execute_ok read
      obtain ⟨-,rfl⟩ := execute_ok ran
      exact ⟨_,settled,looped,rfl,rfl,rfl,rfl,rfl,rfl,rfl⟩
theorem candidates_row (keyed : before.rows.Keyed) {entry : Nat × Record} (member : entry ∈ candidates order data participant before) :
    ∃ createdAt row,entry.2 = .settlement createdAt row ∧ row.status = data.level.fromStatus ∧ before.rows.row entry.1 = some entry.2 := by
  obtain ⟨key,record⟩ := entry
  obtain ⟨stored,chosen⟩ := select_row keyed ((order.perm _).mem_iff.mp member)
  cases record with
  | order row => cases chosen
  | settlement createdAt row =>
    simp only [candidate,Record.settlement?,Option.any_some,Bool.and_eq_true,beq_iff_eq] at chosen
    exact ⟨createdAt,row,rfl,chosen.1.2,stored⟩
theorem candidates_keys (order : CreationOrder) (data : Advance) (participant : Nat) (keyed : before.rows.Keyed) :
    ((candidates order data participant before).map (·.1)).Nodup :=
  ((order.perm _).map _).nodup_iff.mpr (select_keyed keyed _)

-- One UPDATE a row, of rows with different keys.
theorem rows_moved {front rows moved : Table Record} (once : (front.map (·.1)).Nodup)
    (written : front = [] ∧ moved = rows ∨ ∃ actor,data.requesterId = some actor ∧
      moved = applyWrites rows (front.map fun entry => .update entry.1 (advanceRow data actor))) :
    (∀ key,key ∉ front.map (·.1) → moved.row key = rows.row key) ∧
    ∀ entry ∈ front,∃ actor,data.requesterId = some actor ∧ moved.row entry.1 = (rows.row entry.1).map (advanceRow data actor) := by
  obtain ⟨rfl,rfl⟩ | ⟨actor,known,rfl⟩ := written
  · exact ⟨fun _ _ => rfl,by simp⟩
  have here := fun key => (applyWrites_row ((front.map (·.1)).map fun key => .update key (advanceRow data actor)) rows key).trans
    (written_updates once (advanceRow data actor) key (rows.row key))
  simp only [List.map_map,Function.comp_def] at here
  constructor
  · intro key absent
    exact (here key).trans (if_neg absent)
  · intro entry member
    exact ⟨actor,known,(here entry.1).trans (if_pos (List.mem_map_of_mem member))⟩

theorem transaction_settles (positive : 0 < data.amount) (keyed : before.rows.Keyed)
    (ran : transaction order fault data participant data.amount before = .ok final) :
    Settles data (candidates order data participant before) (Fifo.fifo (legOf data.level) data.amount (candidates order data participant before))
      before final.ledger ⟨final.settledOrderIds,final.allocated,max (data.amount - final.allocated) 0⟩ := by
  have nonneg := legOf_nonneg data.level
  obtain ⟨found,settled,looped,rfl,rem,none,zero,ledger,ids,sum⟩ := transaction_ok ran
  obtain ⟨orders,allocated,legs,rows⟩ := settleRows_ok looped
  rw [rem] at orders allocated legs rows
  rw [none] at orders
  rw [zero,Int.zero_add] at allocated
  have stored : ∀ entry ∈ candidates order data participant found.ledger,_ := fun entry => candidates_row keyed
  have distinct := candidates_keys order data participant keyed
  generalize candidates order data participant found.ledger = queue at *
  have front : Fifo.fifo (legOf data.level) data.amount queue <+: queue := Fifo.fifo_front _ _
  have within := Fifo.fifo_total nonneg (Int.le_of_lt positive) queue
  have caught : Fifo.CaughtUp (legOf data.level) (data.amount - Fifo.total (legOf data.level) (Fifo.fifo (legOf data.level) data.amount queue))
      (queue.drop (Fifo.fifo (legOf data.level) data.amount queue).length) :=
    (Fifo.caughtUp_exact nonneg positive front within).mpr (by rw [Fifo.pay,if_pos positive])
  have longest : ∀ group,group <+: queue → Fifo.total (legOf data.level) group ≤ data.amount →
      group <+: Fifo.fifo (legOf data.level) data.amount queue := fun group => Fifo.fifo_longest nonneg
  generalize Fifo.fifo (legOf data.level) data.amount queue = taken at *
  obtain ⟨others,moved⟩ := rows_moved (distinct.sublist (front.sublist.map _)) rows
  have rest : max (data.amount - final.allocated) 0 = data.amount - Fifo.total (legOf data.level) taken := by
    rw [sum,allocated]
    omega
  refine ⟨front,within,longest,ids.trans orders,sum.trans allocated,?_,?_,?_,?_,?_⟩
  · rw [rest]
    exact ⟨by rw [sum,allocated],show 0 ≤ data.amount - _ by omega⟩
  · intro next first
    rw [rest]
    exact caught next first
  · rw [ledger]
    exact legs
  · intro entry member
    obtain ⟨createdAt,row,settlement,status,here⟩ := stored entry (front.subset member)
    obtain ⟨actor,known,after⟩ := moved entry member
    refine ⟨createdAt,row,actor,known,settlement,status,?_,stamp_status _ _ _ _⟩
    rw [ledger,after,here,settlement]
    rfl
  · rw [ledger]
    exact others

end Runs

theorem older_ascending (rows : Table Record) : (byCreation rows).Pairwise fun older newer => older.2.createdAt ≤ newer.2.createdAt := by
  have sorted : (byCreation rows).Pairwise fun left right => older left right = true := List.pairwise_mergeSort older_trans older_total rows
  refine sorted.imp ?_
  intro left right before
  simp only [older,Bool.or_eq_true,Bool.and_eq_true,decide_eq_true_eq,beq_iff_eq] at before
  omega
def byKey : CreationOrder := ⟨byCreation,fun rows => List.mergeSort_perm rows older,older_ascending⟩

-- A courier with legs of 100 and 60 hands over 130.
def twoLegs : Ledger := ⟨[(settlementKey 0,.settlement 0 openRow),(settlementKey 1,.settlement 5 {openRow with courierAmount:=60})],[]⟩
end Elchi.FifoSettlement
