import Mathlib.Data.List.Perm.Basic
import Elchi.ExtraCosts
import Elchi.FinancialLedger
namespace Elchi.Finance

-- Where the rows come from, and what an answer promises.
structure Answering (inputs : Nat → FinancialRecord) (s : Journals) : Prop where
  source : ∀ row ∈ s.rows,∃ who,s.phases who ≠ .called ∧ row.orderId = (inputs who).orderId ∧ row.sourceType = (inputs who).sourceType ∧
    row.amount = numeric2 ((inputs who).amount.getD 0)
  ready : ∀ who row,s.phases who = .committing row → row.orderId = (inputs who).orderId ∧ row.sourceType = (inputs who).sourceType ∧
    row.amount = numeric2 ((inputs who).amount.getD 0)
  kept : ∀ who answer,s.phases who = .answered answer → answer ≠ .failed → (inputs who).amount.getD 0 ≠ 0 →
    (inputs who).orderId.isSome = true → ∃ row ∈ s.rows,row.orderId = (inputs who).orderId ∧ row.sourceType = (inputs who).sourceType

section Answers
variable {inputs : Nat → FinancialRecord} {s : Journals}

theorem empty_answering (inputs : Nat → FinancialRecord) (nextId : Nat) : Answering inputs (emptyJournals nextId) := by
  refine ⟨nofun,?_,?_⟩
  · intro who row phase
    cases phase
  · intro who answer phase
    cases phase

-- A call moves on without touching the rows.
theorem move_answering (who : Nat) (phase : RecordPhase) (answering : Answering inputs s) (begun : phase ≠ .called)
    (ready : ∀ row,phase = .committing row → row.orderId = (inputs who).orderId ∧ row.sourceType = (inputs who).sourceType ∧
      row.amount = numeric2 ((inputs who).amount.getD 0))
    (kept : ∀ answer,phase = .answered answer → answer ≠ .failed → (inputs who).amount.getD 0 ≠ 0 →
      (inputs who).orderId.isSome = true → ∃ row ∈ s.rows,row.orderId = (inputs who).orderId ∧ row.sourceType = (inputs who).sourceType) :
    Answering inputs (s.move who phase) := by
  refine ⟨?_,?_,?_⟩
  · intro row member
    obtain ⟨other,started,same⟩ := answering.source row member
    refine ⟨other,?_,same⟩
    by_cases mine : other = who
    · simpa [Journals.move,mine] using begun
    · simpa [Journals.move,mine] using started
  · intro other row now
    by_cases mine : other = who
    · subst mine
      exact ready row (by simpa [Journals.move] using now)
    · exact answering.ready other row (by simpa [Journals.move,mine] using now)
  · intro other answer now
    by_cases mine : other = who
    · subst mine
      exact kept answer (by simpa [Journals.move] using now)
    · exact answering.kept other answer (by simpa [Journals.move,mine] using now)

theorem finish_answering (who : Nat) (answer : RecordAnswer) (answering : Answering inputs s)
    (kept : answer ≠ .failed → (inputs who).amount.getD 0 ≠ 0 → (inputs who).orderId.isSome = true →
      ∃ row ∈ s.rows,row.orderId = (inputs who).orderId ∧ row.sourceType = (inputs who).sourceType) :
    Answering inputs (s.finish who answer) := by
  have moved := move_answering who (.answered answer) answering (by simp) (by simp) (by
    intro other same
    cases same
    exact kept)
  exact ⟨moved.source,moved.ready,moved.kept⟩

theorem append_answering (answering : Answering inputs s) (phase : s.phases who = .committing row) (answer : RecordAnswer) :
    Answering inputs {s.finish who answer with rows:=s.rows ++ [row]} := by
  obtain ⟨order,source,amount⟩ := answering.ready who row phase
  have begun : s.phases who ≠ .called := by
    rw [phase]
    nofun
  have grown : Answering inputs {s with rows:=s.rows ++ [row]} := by
    refine ⟨?_,answering.ready,?_⟩
    · intro found member
      rcases List.mem_append.mp member with earlier | last
      · exact answering.source found earlier
      · cases List.mem_singleton.mp last
        exact ⟨who,begun,order,source,amount⟩
    · intro other answer now honest nonzero ordered
      obtain ⟨found,member,same⟩ := answering.kept other answer now honest nonzero ordered
      exact ⟨found,List.mem_append_left _ member,same⟩
  exact finish_answering who answer grown fun _ _ _ => ⟨row,by simp,order,source⟩

theorem record_answering (answering : Answering inputs s) (who : Nat) :
    Answering inputs (recordFinancialBalance (inputs who) s who) := by
  unfold recordFinancialBalance
  cases phase : s.phases who with
  | called =>
    dsimp only
    split
    · rename_i zero
      exact move_answering who _ answering (by simp) (by simp) fun _ _ _ nonzero => absurd zero nonzero
    · exact move_answering who _ answering (by simp) (by simp) (by simp)
  | locking =>
    dsimp only
    split
    · have moved := move_answering who .checking answering (by simp) (by simp) (by simp)
      exact ⟨moved.source,moved.ready,moved.kept⟩
    · exact answering
  | checking =>
    dsimp only
    split
    · rename_i existing found
      apply finish_answering who _ answering
      intro _ _ ordered
      obtain ⟨orderId,known⟩ := Option.isSome_iff_exists.mp ordered
      rw [recordedFor,known,Option.bind_some] at found
      have same := List.find?_some found
      simp only [Bool.and_eq_true,beq_iff_eq] at same
      exact ⟨existing,List.mem_of_find?_eq_some found,same.1.trans known.symm,same.2⟩
    · exact move_answering who _ answering (by simp) (by simp) (by simp)
  | reading => exact move_answering who _ answering (by simp) (by simp) (by simp)
  | inserting balanceBefore =>
    have moved := move_answering who (.committing (newEntry (inputs who) s.nextId ((inputs who).amount.getD 0) balanceBefore)) answering
      (by simp) (by
        intro row same
        cases same
        exact ⟨rfl,rfl,rfl⟩) (by simp)
    exact ⟨moved.source,moved.ready,moved.kept⟩
  | committing row => exact append_answering answering phase _
  | answered answer => exact answering

theorem advance_answering (answering : Answering inputs s) (turn : RecordTurn) : Answering inputs (s.advance inputs turn) := by
  cases turn with
  | go who => exact record_answering answering who
  | fail who =>
    unfold Journals.advance
    dsimp only
    split
    · exact answering
    · exact finish_answering who _ answering fun honest => absurd rfl honest
  | lost who =>
    unfold Journals.advance
    dsimp only
    split
    · rename_i row phase
      exact append_answering answering phase _
    · exact answering

theorem run_answering (answering : Answering inputs s) (turns : List RecordTurn) : Answering inputs (s.run inputs turns) := by
  induction turns generalizing s with
  | nil => exact answering
  | cons turn rest ih => exact ih (advance_answering answering turn)

end Answers

-- Calls that come one after the other, each to its end.
def oneByOne (count : Nat) : List RecordTurn := (List.range count).flatMap fun who => List.replicate 6 (.go who)

theorem solo_answers (inputs : Nat → FinancialRecord) {s : Journals} (free : s.holder = none) (idle : s.phases who = .called) :
    (s.run inputs (List.replicate 6 (.go who))).holder = none ∧
    (∃ answer,(s.run inputs (List.replicate 6 (.go who))).phases who = .answered answer ∧ answer ≠ .failed) ∧
    ∀ other,other ≠ who → (s.run inputs (List.replicate 6 (.go who))).phases other = s.phases other := by
  simp only [Journals.run,List.replicate,List.foldl_cons,List.foldl_nil,Journals.advance]
  by_cases zero : (inputs who).amount.getD 0 = 0
  · simp +contextual [recordFinancialBalance,Journals.move,idle,zero,free]
  · cases found : recordedFor s.rows (inputs who) with
    | some existing => simp +contextual [recordFinancialBalance,Journals.move,Journals.finish,idle,zero,free,found]
    | none => simp +contextual [recordFinancialBalance,Journals.move,Journals.finish,idle,zero,free,found]

theorem oneByOne_answers (inputs : Nat → FinancialRecord) (nextId count : Nat) :
    ((emptyJournals nextId).run inputs (oneByOne count)).holder = none ∧
    (∀ who,who < count → ∃ answer,((emptyJournals nextId).run inputs (oneByOne count)).phases who = .answered answer ∧ answer ≠ .failed) ∧
    ∀ who,count ≤ who → ((emptyJournals nextId).run inputs (oneByOne count)).phases who = .called := by
  induction count with
  | zero => exact ⟨rfl,nofun,fun _ _ => rfl⟩
  | succ count ih =>
    obtain ⟨free,done,idle⟩ := ih
    have next : (emptyJournals nextId).run inputs (oneByOne (count + 1)) =
        ((emptyJournals nextId).run inputs (oneByOne count)).run inputs (List.replicate 6 (.go count)) := by
      simp [oneByOne,List.range_succ,Journals.run]
    obtain ⟨released,answered,others⟩ := solo_answers inputs free (idle count le_rfl)
    rw [next]
    refine ⟨released,?_,?_⟩
    · intro who below
      by_cases same : who = count
      · rw [same]
        exact answered
      · rw [others who same]
        exact done who (by omega)
    · intro who above
      rw [others who (by omega)]
      exact idle who (by omega)

theorem numeric2_whole (amount : Int) : numeric2 amount = amount := by
  have exact := (numeric2_exact amount ((0 : Int) : ℚ)).mpr (whole_exact amount 0)
  have zero : numeric2 ((0 : Int) : ℚ) = 0 := by
    norm_num [numeric2]
  rw [zero,Int.cast_zero,add_zero,add_zero] at exact
  exact exact

end Elchi.Finance

namespace Elchi.Orders
open RowLock
open Finance (FinancialBalanceHistory FinancialRecord Journals)

-- The P&L rows that carry the extra cost of an order.
def FinancialSource.ofExtraCost : FinancialSource → Bool
  | .sellExtraCost | .cancelExtraCost | .correction => true
  | _ => false
def extraCostTotal (rows : List FinancialBalanceHistory) (id : Nat) : Int :=
  ((rows.filter fun row => row.orderId == some id && row.sourceType.ofExtraCost).map (·.amount)).sum

-- finance.financial_balance.record as finance gets it.
def OrderEvent.record : OrderEvent → Option FinancialRecord
  | .financialBalance amount source orderId relatedUserId comment =>
    some {amount:=some amount,sourceType:=source,orderId:=some orderId,relatedUserId:=some relatedUserId,comment:=some comment}
  | _ => none

-- Every event has been recorded or was found recorded; the rest of the ledger is not about
-- extra costs of this order.
structure Applied (id : Nat) (events : List OrderEvent) (inputs : Nat → FinancialRecord) (s : Journals) : Prop where
  sent : ∀ who,s.phases who ≠ .called → (inputs who).orderId = some id → (inputs who).sourceType.ofExtraCost = true →
    ∃ event ∈ events,event.record = some (inputs who)
  answered : ∀ event ∈ events,∀ input,event.record = some input →
    ∃ who answer,inputs who = input ∧ s.phases who = .answered answer ∧ answer ≠ .failed
def Ledger (id : Nat) (log : List OrderCommit) (rows : List FinancialBalanceHistory) : Prop :=
  ∃ inputs nextId turns,Applied id (log.flatMap fun commit => commit.entries.map (·.2)) inputs
    ((Finance.emptyJournals nextId).run inputs turns) ∧ rows = ((Finance.emptyJournals nextId).run inputs turns).rows

def Call.extraCost : Call → Int
  | .sell _ _ _ dto _ => max (dto.extraCost.getD 0) 0
  | .partlySell _ _ _ dto _ _ => max (dto.extraCost.getD 0) 0
  | .cancel _ _ _ dto _ => max (dto.extraCost.getD 0) 0
  | _ => 0
-- The extra cost of the sale or cancellation that stands.
def standingAfter (id : Nat) (standing : Int) (commit : OrderCommit) : Int :=
  if commit.note.call.closes id then commit.note.call.extraCost
  else if commit.note.call.rollsBack id then 0
  else standing
def standingCost (id : Nat) (log : List OrderCommit) : Int := log.foldl (standingAfter id) 0

-- The extra costs of the order among the enqueued events.
def OrderEvent.extraCost (id : Nat) : OrderEvent → Option (FinancialSource × Int)
  | .financialBalance amount source orderId _ _ => if orderId = id ∧ source.ofExtraCost then some (source,amount) else none
  | _ => none
def commitCosts (id : Nat) (commit : OrderCommit) : List (FinancialSource × Int) :=
  (commit.entries.map (·.2)).filterMap (OrderEvent.extraCost id)
def costsOf (id : Nat) (log : List OrderCommit) : List (FinancialSource × Int) := log.flatMap (commitCosts id)
def recordsOf (id : Nat) (source : FinancialSource) (log : List OrderCommit) : Bool :=
  ((costsOf id log).map (·.1)).contains source

-- What finance has to answer for a rollback to find the extra cost that stands, if one does.
inductive FindsCost (lookups : Lookups) (id : Nat) (order : Order) (actorId : Nat) : Int → Prop where
  | nothing (market : ShowsNone lookups id order order.marketId) (actor : ShowsNone lookups id order actorId) :
      FindsCost lookups id order actorId 0
  | charge (positive : 0 < amount) (market : ShowsCost lookups id order order.marketId amount)
      (actor : ShowsCost lookups id order actorId amount ∨ ShowsNone lookups id order actorId) :
      FindsCost lookups id order actorId amount
def RollbackFinds (id : Nat) (standing : Int) (back : OrderCommit) : Prop :=
  ∀ lookups requester targetStatus requestId loaded courierId,back.note.call = .rollback lookups requester id targetStatus requestId →
    back.note.loaded = some loaded → resolveActorCourierId requester loaded (loaded.postId.bind lookups.posts) = .ok courierId →
    FindsCost lookups id loaded (actorExpense requester courierId).1 standing

def Call.costSource : Call → FinancialSource
  | .cancel _ _ _ _ _ => .cancelExtraCost
  | _ => .sellExtraCost

-- The steps whose extra cost the ledger follows: the first one of its source, and of the
-- rollbacks that find one only those of a sale.
def Follows (id : Nat) (before : List OrderCommit) (commit : OrderCommit) : Prop :=
  (commit.note.call.closes id = true → 0 < commit.note.call.extraCost → recordsOf id commit.note.call.costSource before = false) ∧
  (commit.note.call.rollsBack id = true → 0 < standingCost id before →
    soldIn commit.before id = true ∧ recordsOf id .correction before = false)
instance (id : Nat) (before : List OrderCommit) (commit : OrderCommit) : Decidable (Follows id before commit) :=
  inferInstanceAs (Decidable (_ ∧ _))

section Rows
variable {id : Nat} {rows : List FinancialBalanceHistory} {costs : List (FinancialSource × Int)}

-- The ledger against the extra costs enqueued so far.
structure Recorded (id : Nat) (costs : List (FinancialSource × Int)) (rows : List FinancialBalanceHistory) : Prop where
  once : rows.Pairwise Finance.PairOnce
  sound : ∀ row ∈ rows,row.orderId = some id → row.sourceType.ofExtraCost = true → (row.sourceType,row.amount) ∈ costs
  complete : ∀ cost ∈ costs,∃ row ∈ rows,row.orderId = some id ∧ row.sourceType = cost.1

def costsIn (rows : List FinancialBalanceHistory) (id : Nat) : List (FinancialSource × Int) :=
  (rows.filter fun row => row.orderId == some id && row.sourceType.ofExtraCost).map fun row => (row.sourceType,row.amount)
def Apart (costs : List (FinancialSource × Int)) : Prop := (costs.map (·.1)).Nodup
def sumOf (costs : List (FinancialSource × Int)) : Int := (costs.map (·.2)).sum

theorem extraCostTotal_sum (rows : List FinancialBalanceHistory) (id : Nat) : extraCostTotal rows id = sumOf (costsIn rows id) := by
  rw [extraCostTotal,sumOf,costsIn,List.map_map]
  rfl

theorem costsIn_mem : cost ∈ costsIn rows id ↔
    ∃ row ∈ rows,row.orderId = some id ∧ row.sourceType.ofExtraCost = true ∧ (row.sourceType,row.amount) = cost := by
  simp [costsIn,and_assoc]

theorem costsIn_apart (once : rows.Pairwise Finance.PairOnce) : Apart (costsIn rows id) := by
  unfold Apart costsIn
  rw [List.map_map,List.Nodup,List.pairwise_map,List.pairwise_filter]
  refine once.imp ?_
  intro first second apart firstMine secondMine
  simp only [Bool.and_eq_true,beq_iff_eq] at firstMine secondMine
  exact apart (by simp [firstMine.1]) (firstMine.1.trans secondMine.1.symm)

theorem apart_same (apart : Apart costs) (here : (source,first) ∈ costs) (there : (source,second) ∈ costs) : first = second :=
  (Prod.mk.inj (List.inj_on_of_nodup_map apart here there rfl)).2
theorem sum_same (apart : Apart costs) (others : Apart costs') (same : ∀ cost,cost ∈ costs ↔ cost ∈ costs') : sumOf costs = sumOf costs' := by
  have perm := (List.perm_ext_iff_of_nodup apart.of_map others.of_map).mpr same
  exact (perm.map (·.2)).sum_eq

-- While every source is enqueued once the ledger holds just what was enqueued.
theorem recorded_sum (recorded : Recorded id costs rows) (apart : Apart costs) (extra : ∀ cost ∈ costs,cost.1.ofExtraCost = true) :
    extraCostTotal rows id = sumOf costs := by
  rw [extraCostTotal_sum]
  apply sum_same (costsIn_apart recorded.once) apart
  intro cost
  rw [costsIn_mem]
  constructor
  · rintro ⟨row,member,mine,source,rfl⟩
    exact recorded.sound row member mine source
  · intro member
    obtain ⟨row,here,mine,source⟩ := recorded.complete cost member
    have charged : row.sourceType.ofExtraCost = true := by
      rw [source]
      exact extra cost member
    have amount := recorded.sound row here mine charged
    refine ⟨row,here,mine,charged,?_⟩
    rw [source] at amount ⊢
    rw [apart_same apart amount member]

-- Of two events of one source one is recorded.
theorem recorded_again (recorded : Recorded id (costs ++ [(source,amount)]) rows) (apart : Apart costs)
    (extra : ∀ cost ∈ costs,cost.1.ofExtraCost = true) (earlier : (source,old) ∈ costs) :
    extraCostTotal rows id = sumOf costs ∨ extraCostTotal rows id = sumOf costs - old + amount := by
  have charged : source.ofExtraCost = true := extra _ earlier
  by_cases kept : ∀ row ∈ rows,row.orderId = some id → row.sourceType.ofExtraCost = true → (row.sourceType,row.amount) ∈ costs
  · left
    exact recorded_sum ⟨recorded.once,kept,fun cost member => recorded.complete cost (by simp [member])⟩ apart extra
  · right
    push Not at kept
    obtain ⟨row,member,mine,also,new⟩ := kept
    have last : (row.sourceType,row.amount) = (source,amount) := by
      simpa [new] using recorded.sound row member mine also
    have without : Apart (costs.erase (source,old)) := List.Nodup.sublist (List.erase_sublist.map _) apart
    have gone : ∀ cost ∈ costs.erase (source,old),cost.1 ≠ source := by
      intro cost inside same
      have there := List.mem_of_mem_erase inside
      have again : cost = (source,old) := Prod.ext same (apart_same apart (by rw [←same]; exact there) earlier)
      rw [again] at inside
      exact apart.of_map.not_mem_erase inside
    have replaced : Apart (costs.erase (source,old) ++ [(source,amount)]) := by
      unfold Apart
      rw [List.map_append,List.nodup_append]
      refine ⟨without,List.nodup_singleton _,?_⟩
      intro kind inside other single same
      obtain ⟨cost,here,rfl⟩ := List.mem_map.mp inside
      exact gone cost here (same.trans (List.mem_singleton.mp single))
    have swapped : Recorded id (costs.erase (source,old) ++ [(source,amount)]) rows := by
      refine ⟨recorded.once,?_,?_⟩
      · intro other here also' charged'
        have shown := recorded.sound other here also' charged'
        by_cases same : other.sourceType = source
        · have both : other.amount = row.amount := by
            have first := costsIn_mem.mpr ⟨other,here,also',charged',rfl⟩
            have second := costsIn_mem.mpr ⟨row,member,mine,also,rfl⟩
            rw [(Prod.mk.inj last).1] at second
            rw [same] at first
            exact apart_same (costsIn_apart recorded.once) first second
          rw [same,both,(Prod.mk.inj last).2]
          simp
        · have inside : (other.sourceType,other.amount) ∈ costs := by
            simpa [same] using shown
          have different : ((other.sourceType,other.amount) : FinancialSource × Int) ≠ (source,old) := by
            intro equal
            exact same (Prod.mk.inj equal).1
          exact List.mem_append_left _ ((List.mem_erase_of_ne different).mpr inside)
      · intro cost inside
        rcases List.mem_append.mp inside with left | new
        · exact recorded.complete cost (by simp [List.mem_of_mem_erase left])
        · exact recorded.complete cost (by simpa using .inr (List.mem_singleton.mp new))
    rw [recorded_sum swapped replaced (by
      intro cost inside
      rcases List.mem_append.mp inside with left | new
      · exact extra cost (List.mem_of_mem_erase left)
      · rw [List.mem_singleton.mp new]
        exact charged)]
    have whole : sumOf costs = old + sumOf (costs.erase (source,old)) := by
      have perm := (List.perm_cons_erase earlier).map (·.2)
      simpa [sumOf] using perm.sum_eq
    rw [whole]
    simp [sumOf]

end Rows

theorem ledger_recorded {id : Nat} {log : List OrderCommit} (ledger : Ledger id log rows)
    (nonzero : ∀ cost ∈ costsOf id log,cost.2 ≠ 0) : Recorded id (costsOf id log) rows := by
  obtain ⟨inputs,nextId,turns,applied,rfl⟩ := ledger
  have chained := Finance.run_chained (Finance.emptyJournals_chained inputs nextId) turns
  have answering := Finance.run_answering (Finance.empty_answering inputs nextId) turns
  have events : ∀ cost,cost ∈ costsOf id log ↔ ∃ event ∈ log.flatMap fun commit => commit.entries.map (·.2),
      event.extraCost id = some cost := by
    intro cost
    simp only [costsOf,commitCosts,List.mem_flatMap,List.mem_filterMap]
    constructor
    · rintro ⟨commit,member,event,inside,here⟩
      exact ⟨event,⟨commit,member,inside⟩,here⟩
    · rintro ⟨event,⟨commit,member,inside⟩,here⟩
      exact ⟨commit,member,event,inside,here⟩
  refine ⟨chained.once,?_,?_⟩
  · intro row member mine charged
    obtain ⟨who,begun,order,source,amount⟩ := answering.source row member
    obtain ⟨event,inside,sent⟩ := applied.sent who begun (order.symm.trans mine) (source ▸ charged)
    apply (events _).mpr
    refine ⟨event,inside,?_⟩
    cases event with
    | financialBalance value kind orderId relatedUserId comment =>
      have same := Option.some.inj sent
      rw [←same] at order source amount
      simp only [mine,Option.some.injEq] at order
      simp only at source
      rw [source] at charged
      rw [OrderEvent.extraCost,if_pos ⟨order.symm,charged⟩,source,amount]
      simp [Finance.numeric2_whole]
    | _ => cases sent
  · intro cost member
    obtain ⟨event,inside,here⟩ := (events cost).mp member
    have moved := nonzero cost member
    cases event with
    | financialBalance value kind orderId relatedUserId comment =>
      simp only [OrderEvent.extraCost] at here
      split at here
      · rename_i mine
        cases here
        obtain ⟨who,answer,same,phase,honest⟩ := applied.answered _ inside _ rfl
        have amount : (inputs who).amount.getD 0 ≠ 0 := by
          rw [same]
          exact Int.cast_ne_zero.mpr moved
        obtain ⟨row,there,order,source⟩ := answering.kept who answer phase honest amount (by rw [same]; rfl)
        rw [same] at order source
        exact ⟨row,there,by rw [order,mine.1],source⟩
      · cases here
    | _ => cases here

-- What one commit enqueues of this order's extra costs.
section Commits
variable {id : Nat} {commit : OrderCommit}

theorem keyed_costs (key : Nat) (events : List OrderEvent) :
    ((events.map (key,·)).map (·.2)).filterMap (OrderEvent.extraCost id) = events.filterMap (OrderEvent.extraCost id) := by
  simp [List.map_map,Function.comp_def]
theorem legs_costs (legs : List BalanceLeg) : (legs.map OrderEvent.balance).filterMap (OrderEvent.extraCost id) = [] := by
  simp [List.filterMap_map,Function.comp_def,OrderEvent.extraCost]
theorem status_costs (key : Nat) (before after : Order) : (statusEvents key before after).filterMap (OrderEvent.extraCost id) = [] := by
  apply List.filterMap_eq_nil_iff.mpr
  intro event member
  unfold statusEvents financeEvents at member
  dsimp only at member
  split at member
  · cases member
  · split at member
    · rcases List.mem_append.mp member with earning | profit
      · split at earning
        · cases List.mem_singleton.mp earning
          rfl
        · cases earning
      · split at profit
        · cases List.mem_singleton.mp profit
          simp [OrderEvent.extraCost,FinancialSource.ofExtraCost]
        · cases profit
    · split at member
      · cases List.mem_singleton.mp member
        rfl
      · cases member
theorem record_costs (key marketId : Nat) (source : FinancialSource) (text : String) (extraCost : Int) (charged : source.ofExtraCost = true) :
    (extraCostRecord key marketId source text extraCost).filterMap (OrderEvent.extraCost id) =
      if key = id ∧ 0 < extraCost then [(source,-extraCost)] else [] := by
  unfold extraCostRecord
  by_cases positive : 0 < extraCost
  · rw [if_pos positive]
    by_cases mine : key = id
    · simp [OrderEvent.extraCost,mine,charged,positive]
    · simp [OrderEvent.extraCost,mine]
  · rw [if_neg positive,if_neg fun both => positive both.2]
    rfl

theorem sale_costs (key : Nat) (plan : SalePlan) (before after : Order) :
    ((((plan.events ++ statusEvents key before after).map (key,·)).map (·.2)).filterMap (OrderEvent.extraCost id)) =
      plan.record.filterMap (OrderEvent.extraCost id) := by
  rw [keyed_costs,SalePlan.events,List.filterMap_append,List.filterMap_append,legs_costs,status_costs,List.nil_append,List.append_nil]

theorem commitCosts_closes (made : Transaction commit.held commit.note commit.writes commit.entries)
    (closes : commit.note.call.closes id = true) : commitCosts id commit =
      if 0 < commit.note.call.extraCost then [(commit.note.call.costSource,-commit.note.call.extraCost)] else [] := by
  obtain ⟨who,note,held,before,writes,entries⟩ := commit
  dsimp only at made closes
  cases made with
  | sell planned locked waiting passed =>
    cases beq_iff_eq.mp closes
    obtain ⟨-,_,_,_,_,_,-,-,rfl⟩ := sellPlan_parts planned
    rw [commitCosts,sale_costs]
    simp only [salePlan]
    rw [record_costs _ _ _ _ _ rfl]
    simp [Call.extraCost,Call.costSource,sellTerms,saleTerms]
  | partlySell planned locked waiting passed apart childNew =>
    cases beq_iff_eq.mp closes
    obtain ⟨-,_,_,_,_,_,_,-,-,same⟩ := partlySellPlan_parts planned
    rw [commitCosts,sale_costs,same]
    simp only [partialSale,salePlan]
    rw [record_costs _ _ _ _ _ rfl]
    simp [Call.extraCost,Call.costSource,partlySellTerms,saleTerms]
  | cancel planned locked waiting passed =>
    cases beq_iff_eq.mp closes
    obtain ⟨-,_,_,_,-,-,record,-⟩ := cancelPlan_parts planned
    rw [commitCosts,keyed_costs,List.filterMap_append,List.filterMap_append,legs_costs,status_costs,record,record_costs _ _ _ _ _ rfl]
    simp [Call.extraCost,Call.costSource]
  | _ => cases closes

theorem found_cost {order : Order} (found : FindsCost lookups id order actorId amount) :
    max (standingExtraCost lookups id order order.marketId) (standingExtraCost lookups id order actorId) = amount := by
  cases found with
  | nothing market actor =>
    rw [standingExtraCost_none market,standingExtraCost_none actor]
    rfl
  | charge positive market actor =>
    rw [standingExtraCost_shown market positive]
    rcases actor with shown | none
    · rw [standingExtraCost_shown shown positive,max_self]
    · rw [standingExtraCost_none none]
      exact max_eq_left positive.le

theorem commitCosts_rollback (made : Transaction commit.held commit.note commit.writes commit.entries)
    (sees : Sees commit.held commit.before) (rolls : commit.note.call.rollsBack id = true)
    (finds : RollbackFinds id amount commit) : commitCosts id commit =
      if soldIn commit.before id = true ∧ 0 < amount then [(.correction,amount)] else [] := by
  obtain ⟨who,note,held,before,writes,entries⟩ := commit
  dsimp only at made sees rolls
  cases made with
  | rollback target allowed planned locked unchanged passed merged =>
    cases beq_iff_eq.mp rolls
    obtain ⟨courierId,parties,resolved,-,rfl⟩ := rollbackPlan_parts planned
    have here := locks_row locked sees
    have found := finds _ _ _ _ _ courierId rfl rfl resolved
    rw [commitCosts,keyed_costs,RollbackPlan.events]
    simp only [List.filterMap_append,legs_costs,status_costs,List.nil_append,List.append_nil]
    simp only [soldIn,statusAt,here,Option.map_some,Option.any_some,unchanged,reversal,found_cost found]
    split
    · simp [OrderEvent.extraCost,FinancialSource.ofExtraCost]
    · rfl
  | _ => cases rolls

-- The other transactions record none.
theorem commitCosts_other (made : Transaction commit.held commit.note commit.writes commit.entries)
    (closes : commit.note.call.closes id = false) (rolls : commit.note.call.rollsBack id = false) : commitCosts id commit = [] := by
  obtain ⟨who,note,held,before,writes,entries⟩ := commit
  dsimp only at made closes rolls
  cases made with
  | sell planned locked waiting passed =>
    obtain ⟨-,_,_,_,_,_,-,-,rfl⟩ := sellPlan_parts planned
    rw [commitCosts,sale_costs]
    simp only [salePlan]
    rw [record_costs _ _ _ _ _ rfl,if_neg]
    exact fun both => beq_eq_false_iff_ne.mp closes both.1
  | partlySell planned locked waiting passed apart childNew =>
    obtain ⟨-,_,_,_,_,_,_,-,-,same⟩ := partlySellPlan_parts planned
    rw [commitCosts,sale_costs,same]
    simp only [partialSale,salePlan]
    rw [record_costs _ _ _ _ _ rfl,if_neg]
    exact fun both => beq_eq_false_iff_ne.mp closes both.1
  | cancel planned locked waiting passed =>
    obtain ⟨-,_,_,_,-,-,record,-⟩ := cancelPlan_parts planned
    rw [commitCosts,keyed_costs,List.filterMap_append,List.filterMap_append,legs_costs,status_costs,record,record_costs _ _ _ _ _ rfl,
      if_neg fun both => beq_eq_false_iff_ne.mp closes both.1]
    rfl
  | rollback target allowed planned locked unchanged passed merged =>
    obtain ⟨courierId,parties,resolved,-,rfl⟩ := rollbackPlan_parts planned
    rw [commitCosts,keyed_costs,RollbackPlan.events]
    simp only [List.filterMap_append,legs_costs,status_costs,List.nil_append,List.append_nil]
    simp only [reversal]
    split
    · simp [OrderEvent.extraCost,beq_eq_false_iff_ne.mp rolls]
    · rfl
  | update passed => rw [commitCosts,keyed_costs,status_costs]
  | _ => rfl

end Commits

section Runs
variable {id : Nat} {before : List OrderCommit} {commit : OrderCommit}

@[simp] theorem standingCost_snoc (id : Nat) (log : List OrderCommit) (commit : OrderCommit) :
    standingCost id (log ++ [commit]) = standingAfter id (standingCost id log) commit := by
  simp [standingCost]
@[simp] theorem costsOf_snoc (id : Nat) (log : List OrderCommit) (commit : OrderCommit) :
    costsOf id (log ++ [commit]) = costsOf id log ++ commitCosts id commit := by
  simp [costsOf]
theorem sumOf_snoc (costs : List (FinancialSource × Int)) (cost : FinancialSource × Int) : sumOf (costs ++ [cost]) = sumOf costs + cost.2 := by
  simp [sumOf]

theorem contends_exact {id : Nat} {call : Call} : call.Contends id ↔ call.closes id = true ∨ call.rollsBack id = true := by
  cases call <;> simp [Call.Contends,Call.closes,Call.rollsBack]

-- What one commit does to the extra cost that stands and to the records of it.
inductive CostStep (id : Nat) (before : List OrderCommit) (commit : OrderCommit) : Prop where
  | quiet (costs : commitCosts id commit = []) (standing : standingAfter id (standingCost id before) commit = standingCost id before)
      (follows : Follows id before commit)
  | charged (positive : 0 < amount) (free : standingCost id before = 0) (costs : commitCosts id commit = [(source,-amount)])
      (standing : standingAfter id (standingCost id before) commit = amount) (extra : source.ofExtraCost = true)
      (sale : source ≠ .correction) (follows : Follows id before commit ↔ recordsOf id source before = false)
  | undone (positive : 0 < standingCost id before) (costs : commitCosts id commit = [(.correction,standingCost id before)])
      (standing : standingAfter id (standingCost id before) commit = 0)
      (follows : Follows id before commit ↔ recordsOf id .correction before = false)
  | lost (positive : 0 < standingCost id before) (costs : commitCosts id commit = [])
      (standing : standingAfter id (standingCost id before) commit = 0) (missed : ¬Follows id before commit)

theorem closes_apart {call : Call} (closes : call.closes id = true) : call.rollsBack id = false := by
  cases call with
  | rollback => cases closes
  | _ => rfl
theorem follows_closes (closes : commit.note.call.closes id = true) : Follows id before commit ↔
    (0 < commit.note.call.extraCost → recordsOf id commit.note.call.costSource before = false) := by
  simp [Follows,closes,closes_apart closes]
theorem follows_rollsBack (closes : commit.note.call.closes id = false) (rolls : commit.note.call.rollsBack id = true) :
    Follows id before commit ↔ (0 < standingCost id before → soldIn commit.before id = true ∧ recordsOf id .correction before = false) := by
  simp [Follows,closes,rolls]
theorem follows_other (closes : commit.note.call.closes id = false) (rolls : commit.note.call.rollsBack id = false) :
    Follows id before commit := by
  simp [Follows,closes,rolls]
theorem costSource_extra (call : Call) : call.costSource.ofExtraCost = true ∧ call.costSource ≠ .correction := by
  cases call <;> exact ⟨rfl,nofun⟩
theorem extraCost_nonneg (call : Call) : 0 ≤ call.extraCost := by
  cases call <;> simp [Call.extraCost]

theorem standing_nonneg (id : Nat) (log : List OrderCommit) : 0 ≤ standingCost id log := by
  induction log using List.reverseRecOn with
  | nil => rfl
  | append_singleton log commit ih =>
    rw [standingCost_snoc,standingAfter]
    split
    · exact extraCost_nonneg _
    · split
      · rfl
      · exact ih

theorem cost_step (made : Transaction commit.held commit.note commit.writes commit.entries) (sees : Sees commit.held commit.before)
    (idle : statusAt commit.before id = some .waiting → standingCost id before = 0)
    (finds : commit.note.call.rollsBack id = true → RollbackFinds id (standingCost id before) commit) : CostStep id before commit := by
  by_cases closes : commit.note.call.closes id = true
  · have contends := contends_exact.mpr (.inl closes)
    have waits : commit.note.call.closesOrder = true := by
      cases call : commit.note.call <;> simp_all [Call.closes,Call.closesOrder]
    have free := idle (transaction_closes made sees contends waits).1
    have costs := commitCosts_closes made closes
    have after : standingAfter id (standingCost id before) commit = commit.note.call.extraCost := if_pos closes
    by_cases positive : 0 < commit.note.call.extraCost
    · rw [if_pos positive] at costs
      refine .charged positive free costs after (costSource_extra _).1 (costSource_extra _).2 ?_
      rw [follows_closes closes]
      exact ⟨fun first => first positive,fun first _ => first⟩
    · rw [if_neg positive] at costs
      have zero : commit.note.call.extraCost = 0 := le_antisymm (not_lt.mp positive) (extraCost_nonneg _)
      exact .quiet costs (by rw [after,zero,free]) ((follows_closes closes).mpr fun more => absurd more positive)
  · by_cases rolls : commit.note.call.rollsBack id = true
    · have costs := commitCosts_rollback made sees rolls (finds rolls)
      have after : standingAfter id (standingCost id before) commit = 0 := by
        rw [standingAfter,if_neg closes,if_pos rolls]
      by_cases positive : 0 < standingCost id before
      · by_cases sold : soldIn commit.before id = true
        · rw [if_pos ⟨sold,positive⟩] at costs
          refine .undone positive costs after ?_
          rw [follows_rollsBack (Bool.eq_false_iff.mpr closes) rolls]
          exact ⟨fun first => (first positive).2,fun first _ => ⟨sold,first⟩⟩
        · rw [if_neg fun both => sold both.1] at costs
          exact .lost positive costs after fun follows => sold ((follows_rollsBack (Bool.eq_false_iff.mpr closes) rolls).mp follows positive).1
      · rw [if_neg fun both => positive both.2] at costs
        have zero := le_antisymm (not_lt.mp positive) (standing_nonneg id before)
        exact .quiet costs (by rw [after,zero]) ((follows_rollsBack (Bool.eq_false_iff.mpr closes) rolls).mpr fun more => absurd more positive)
    · have other := Bool.eq_false_iff.mpr closes
      have quiet := Bool.eq_false_iff.mpr rolls
      refine .quiet (commitCosts_other made other quiet) ?_ (follows_other other quiet)
      rw [standingAfter,if_neg closes,if_neg rolls]

-- No source enqueued twice, and in sum what stands.
structure Balanced (id : Nat) (log : List OrderCommit) : Prop where
  apart : Apart (costsOf id log)
  extra : ∀ cost ∈ costsOf id log,cost.1.ofExtraCost = true
  signed : ∀ cost ∈ costsOf id log,cost.1 = .correction ∧ 0 < cost.2 ∨ cost.1 ≠ .correction ∧ cost.2 < 0
  even : sumOf (costsOf id log) = -standingCost id log

theorem balanced_nil (id : Nat) : Balanced id [] := ⟨.nil,nofun,nofun,rfl⟩

theorem balanced_next (balanced : Balanced id before) (costs : commitCosts id commit = [(source,amount)])
    (fresh : recordsOf id source before = false) (extra : source.ofExtraCost = true)
    (signed : source = .correction ∧ 0 < amount ∨ source ≠ .correction ∧ amount < 0)
    (even : standingAfter id (standingCost id before) commit = standingCost id before - amount) : Balanced id (before ++ [commit]) := by
  have absent : source ∉ (costsOf id before).map (·.1) := by
    simpa [recordsOf] using fresh
  refine ⟨?_,?_,?_,?_⟩
  · rw [costsOf_snoc,costs,Apart,List.map_append,List.nodup_append]
    refine ⟨balanced.apart,List.nodup_singleton _,?_⟩
    rintro kind inside other single rfl
    cases List.mem_singleton.mp single
    exact absent inside
  · rw [costsOf_snoc,costs]
    exact List.forall_mem_append.mpr ⟨balanced.extra,by simpa using extra⟩
  · rw [costsOf_snoc,costs]
    exact List.forall_mem_append.mpr ⟨balanced.signed,by simpa using signed⟩
  · rw [costsOf_snoc,costs,sumOf_snoc,standingCost_snoc,balanced.even,even]
    ring

theorem recorded_source (recorded : recordsOf id source before = true) : ∃ amount,(source,amount) ∈ costsOf id before := by
  simpa [recordsOf] using recorded

-- A step that is followed keeps the balance, and after one that is not no ledger has it.
theorem step_balanced (balanced : Balanced id before) (step : CostStep id before commit) :
    (Follows id before commit → Balanced id (before ++ [commit])) ∧
    (¬Follows id before commit → (∀ cost ∈ costsOf id (before ++ [commit]),cost.2 ≠ 0) ∧
      ∀ rows,Recorded id (costsOf id (before ++ [commit])) rows → extraCostTotal rows id ≠ -standingCost id (before ++ [commit])) := by
  have moved : ∀ cost ∈ costsOf id before,cost.2 ≠ 0 := by
    intro cost member
    rcases balanced.signed cost member with ⟨-,more⟩ | ⟨-,less⟩
    · exact more.ne'
    · exact less.ne
  cases step with
  | quiet costs standing follows =>
    refine ⟨fun _ => ?_,fun missed => absurd follows missed⟩
    refine ⟨?_,?_,?_,?_⟩
    · simpa [costs] using balanced.apart
    · simpa [costs] using balanced.extra
    · simpa [costs] using balanced.signed
    · simpa [costs,standing] using balanced.even
  | charged positive free costs standing extra sale follows =>
    rename_i amount source
    rw [follows]
    constructor
    · intro fresh
      exact balanced_next balanced costs fresh extra (.inr ⟨sale,by omega⟩) (by rw [standing,free]; ring)
    · intro again
      obtain ⟨old,earlier⟩ := recorded_source (by simpa using again)
      have less : old < 0 := by
        rcases balanced.signed _ earlier with ⟨correction,-⟩ | ⟨-,less⟩
        · exact absurd correction sale
        · exact less
      have even := balanced.even
      rw [free] at even
      rw [costsOf_snoc,costs,standingCost_snoc,standing]
      refine ⟨?_,?_⟩
      · exact List.forall_mem_append.mpr ⟨moved,by simpa using positive.ne'⟩
      · intro rows recorded
        rcases recorded_again recorded balanced.apart balanced.extra earlier with kept | replaced
        · rw [kept,even]
          omega
        · rw [replaced,even]
          omega
  | undone positive costs standing follows =>
    rw [follows]
    constructor
    · intro fresh
      exact balanced_next balanced costs fresh rfl (.inl ⟨rfl,positive⟩) (by rw [standing]; ring)
    · intro again
      obtain ⟨old,earlier⟩ := recorded_source (by simpa using again)
      have more : 0 < old := by
        rcases balanced.signed _ earlier with ⟨-,more⟩ | ⟨sale,-⟩
        · exact more
        · exact absurd rfl sale
      rw [costsOf_snoc,costs,standingCost_snoc,standing]
      refine ⟨?_,?_⟩
      · exact List.forall_mem_append.mpr ⟨moved,by simpa using positive.ne'⟩
      · intro rows recorded
        rcases recorded_again recorded balanced.apart balanced.extra earlier with kept | replaced
        · rw [kept,balanced.even]
          omega
        · rw [replaced,balanced.even]
          omega
  | lost positive costs standing missed =>
    refine ⟨fun follows => absurd follows missed,fun _ => ?_⟩
    rw [costsOf_snoc,costs,List.append_nil,standingCost_snoc,standing]
    refine ⟨moved,?_⟩
    intro rows recorded
    rw [recorded_sum recorded balanced.apart balanced.extra,balanced.even]
    omega

-- The order in WAITING has no extra cost standing.
theorem waiting_stands_nothing {first last : Table OrderRow} {log : List OrderCommit} (path : Replays first log last)
    (made : ∀ commit ∈ log,Transaction commit.held commit.note commit.writes commit.entries ∧ Sees commit.held commit.before)
    (cycles : ∀ commit ∈ log,(∃ write ∈ commit.writes,write.key = id) → commit.note.call.Contends id)
    (waiting : statusAt last id = some .waiting) : standingCost id log = 0 := by
  induction log using List.reverseRecOn generalizing last with
  | nil => rfl
  | append_singleton log commit ih =>
    obtain ⟨middle,earlier,here,rfl⟩ := path.split
    obtain ⟨transaction,sees⟩ := made commit (by simp)
    rw [standingCost_snoc,standingAfter]
    by_cases closes : commit.note.call.closes id = true
    · have waits : commit.note.call.closesOrder = true := by
        cases call : commit.note.call <;> simp_all [Call.closes,Call.closesOrder]
      obtain ⟨-,status,after,gone⟩ := transaction_closes transaction sees (contends_exact.mpr (.inl closes)) waits
      exact absurd (Option.some.inj (after.symm.trans waiting)) gone
    · rw [if_neg closes]
      by_cases rolls : commit.note.call.rollsBack id = true
      · exact if_pos rolls
      · rw [if_neg rolls]
        apply ih earlier (fun other member => made other (by simp [member])) fun other member => cycles other (by simp [member])
        have untouched : ∀ write ∈ commit.writes,write.key ≠ id := by
          intro write member same
          rcases contends_exact.mp (cycles commit (by simp) ⟨write,member,same⟩) with closed | rolled
          · exact closes closed
          · exact rolls rolled
        rw [←here]
        have same := waiting
        rw [Commit.after,statusAt_applied,written_untouched untouched] at same
        exact same

-- Finance can always catch up.
theorem ledger_exists (id : Nat) (log : List OrderCommit) : ∃ rows,Ledger id log rows := by
  let records := (log.flatMap fun commit => commit.entries.map (·.2)).filterMap OrderEvent.record
  let inputs : Nat → FinancialRecord := fun who => (records[who]?).getD {amount:=none,sourceType:=.bills}
  obtain ⟨-,done,idle⟩ := Finance.oneByOne_answers inputs 1 records.length
  refine ⟨_,inputs,1,Finance.oneByOne records.length,⟨?_,?_⟩,rfl⟩
  · intro who begun order charged
    have below : who < records.length := by
      by_contra above
      exact begun (idle who (not_lt.mp above))
    have here : inputs who = records[who] := by simp [inputs,below]
    rw [here]
    exact List.mem_filterMap.mp (List.getElem_mem below)
  · intro event inside input sent
    obtain ⟨who,below,here⟩ := List.getElem_of_mem (List.mem_filterMap.mpr ⟨event,inside,sent⟩)
    obtain ⟨answer,answered,honest⟩ := done who below
    exact ⟨who,answer,by simp [inputs,records,below,here],answered,honest⟩

-- Over all runs in which only sales, cancellations and rollbacks write the order: the total is
-- the standing extra cost at every point, if and only if every step is one the ledger follows.
theorem extra_cost_total_exact {table : Table OrderRow} (keyed : table.Keyed) (below : ∀ key ∈ table.map (·.1),key < nextId)
    (calls : List Call) (turns : List Turn) (id : Nat)
    (cycles : ∀ commit ∈ (serve table nextId calls turns).log,(∃ write ∈ commit.writes,write.key = id) → commit.note.call.Contends id)
    (finds : ∀ before back after,(serve table nextId calls turns).log = before ++ back :: after → back.note.call.rollsBack id = true →
      RollbackFinds id (standingCost id before) back)
    (rows : List OrderCommit → List FinancialBalanceHistory)
    (ledgers : ∀ before after,(serve table nextId calls turns).log = before ++ after → Ledger id before (rows before)) :
    (∀ before after,(serve table nextId calls turns).log = before ++ after → extraCostTotal (rows before) id = -standingCost id before) ↔
    ∀ before commit after,(serve table nextId calls turns).log = before ++ commit :: after → Follows id before commit := by
  have made : ∀ commit ∈ (serve table nextId calls turns).log,Transaction commit.held commit.note commit.writes commit.entries ∧
      Sees commit.held commit.before := fun commit member => (serve_logged keyed below member).2
  have history := serve_replays table nextId calls turns
  have step : ∀ before commit after,(serve table nextId calls turns).log = before ++ commit :: after → CostStep id before commit := by
    intro before commit after split
    obtain ⟨transaction,sees⟩ := made commit (by simp [split])
    refine cost_step transaction sees ?_ (finds before commit after split)
    intro waiting
    rw [split] at history
    obtain ⟨middle,earlier,here,-⟩ := history.split
    rw [here] at waiting
    exact waiting_stands_nothing earlier (fun other member => made other (by simp [split,member]))
      (fun other member => cycles other (by simp [split,member])) waiting
  constructor
  · intro total
    have balanced : ∀ before after,(serve table nextId calls turns).log = before ++ after → Balanced id before ∧
        ∀ earlier commit later,before = earlier ++ commit :: later → Follows id earlier commit := by
      intro before
      induction before using List.reverseRecOn with
      | nil => exact fun _ _ => ⟨balanced_nil id,by simp⟩
      | append_singleton before commit ih =>
        intro after split
        have prior : (serve table nextId calls turns).log = before ++ commit :: after := by simp [split]
        obtain ⟨balance,followed⟩ := ih (commit :: after) prior
        obtain ⟨keeps,breaks⟩ := step_balanced balance (step before commit after prior)
        have follows : Follows id before commit := by
          by_contra missed
          obtain ⟨nonzero,never⟩ := breaks missed
          exact never _ (ledger_recorded (ledgers _ after split) nonzero) (total _ after split)
        refine ⟨keeps follows,?_⟩
        intro earlier other later same
        cases later using List.reverseRecOn with
        | nil =>
          obtain ⟨rfl,one⟩ := List.append_inj' same rfl
          cases one
          exact follows
        | append_singleton later last =>
          rw [←List.cons_append,←List.append_assoc] at same
          exact followed earlier other later (List.append_inj' same rfl).1
    intro before commit after split
    exact (balanced (before ++ [commit]) after (by simp [split])).2 before commit [] rfl
  · intro follows before
    have balanced : ∀ after,(serve table nextId calls turns).log = before ++ after → Balanced id before := by
      induction before using List.reverseRecOn with
      | nil => exact fun _ _ => balanced_nil id
      | append_singleton before commit ih =>
        intro after split
        have prior : (serve table nextId calls turns).log = before ++ commit :: after := by simp [split]
        exact (step_balanced (ih _ prior) (step before commit after prior)).1 (follows before commit after prior)
    intro after split
    have balance := balanced after split
    have recorded := ledger_recorded (ledgers before after split) (by
      intro cost member
      rcases balance.signed cost member with ⟨-,more⟩ | ⟨-,less⟩
      · exact more.ne'
      · exact less.ne)
    rw [recorded_sum recorded balance.apart balance.extra,balance.even]

end Runs

-- The charge of 2 000 so'm is booked at 2500, near every sale and cancellation below.
def foundCost (log : List OrderCommit) (n : Nat) : Bool :=
  match log.drop n with
  | back :: _ => !back.note.call.rollsBack 11 ||
      standingCost 11 (log.take n) == 200000 && back.note.loaded.all fun loaded => settledNear loaded 2500
  | [] => true

theorem charge_found {calls : List Call} {turns : List Turn}
    (booked : ∀ lookups requester targetStatus requestId,.rollback lookups requester 11 targetStatus requestId ∈ calls →
      lookups.extraCosts = fun _ _ => some ⟨200000,2500⟩)
    (checked : ∀ n ∈ List.range (serve sampleTable 12 calls turns).log.length,foundCost (serve sampleTable 12 calls turns).log n = true)
    (before : List OrderCommit) (back : OrderCommit) (after : List OrderCommit)
    (split : (serve sampleTable 12 calls turns).log = before ++ back :: after) (rolls : back.note.call.rollsBack 11 = true) :
    RollbackFinds 11 (standingCost 11 before) back := by
  intro lookups requester targetStatus requestId loaded courierId call read resolved
  have member : back ∈ (serve sampleTable 12 calls turns).log := by simp [split]
  have listed := (serve_logged (by decide) (by decide) member).1
  rw [call] at listed
  have answers := booked _ _ _ _ listed
  have found := checked before.length (List.mem_range.mpr (by rw [split]; simp))
  simp only [foundCost,split,List.drop_left,List.take_left,rolls,read,Option.all_some,Bool.not_true,Bool.false_or,
    Bool.and_eq_true,beq_iff_eq] at found
  rw [found.1]
  refine .charge (by decide) ⟨2500,?_,found.2⟩ (.inl ⟨2500,?_,found.2⟩)
  · rw [answers]
  · rw [answers]

theorem own_calls {calls : List Call} {turns : List Turn} (mine : ∀ call ∈ calls,call.Contends 11) :
    ∀ commit ∈ (serve sampleTable 12 calls turns).log,(∃ write ∈ commit.writes,write.key = 11) → commit.note.call.Contends 11 :=
  fun _ member _ => mine _ (serve_logged (by decide) (by decide) member).1

def soldOnce : List Call := [chargedSale,chargedRollback 2500 9000 none "b"]

theorem extra_cost_total_exact_sold_once : ∃ rows : List OrderCommit → List FinancialBalanceHistory,
    (∀ before after,(serve sampleTable 12 soldOnce inTurn).log = before ++ after → extraCostTotal (rows before) 11 = -standingCost 11 before) ∧
    standingCost 11 ((serve sampleTable 12 soldOnce inTurn).log.take 1) = 200000 ∧
    (serve sampleTable 12 soldOnce inTurn).log.length = 2 := by
  refine ⟨fun before => (ledger_exists 11 before).choose,?_,by decide +kernel,by decide +kernel⟩
  refine (extra_cost_total_exact (by decide) (by decide) soldOnce inTurn 11 (own_calls ?_) ?_ _
    fun before _ _ => (ledger_exists 11 before).choose_spec).mpr ?_
  · simp [soldOnce,chargedSale,chargedRollback,Call.Contends]
  · apply charge_found
    · intro lookups requester targetStatus requestId listed
      simp only [soldOnce,chargedSale,chargedRollback,List.mem_cons,List.not_mem_nil,or_false,reduceCtorEq,false_or] at listed
      cases listed
      rfl
    · decide +kernel
  · intro before commit after split
    have checked : ∀ n ∈ List.range 2,∀ back ∈ ((serve sampleTable 12 soldOnce inTurn).log.drop n).head?,
        Follows 11 ((serve sampleTable 12 soldOnce inTurn).log.take n) back := by decide +kernel
    have length : (serve sampleTable 12 soldOnce inTurn).log.length = 2 := by decide +kernel
    rw [split,List.length_append,List.length_cons] at length
    have here := checked before.length (List.mem_range.mpr (by omega)) commit
    rw [split,List.drop_left,List.take_left] at here
    exact here rfl

-- A cancellation's extra cost is given back in the cashboxes and stays in the P&L; and of two
-- sales with a rollback between them the second records nothing.
def cancelledOnce : List Call := [chargedCancel,chargedRollback 2500 9000 none "b"]
def soldTwice : List Call :=
  soldOnce ++ [.sell (sampleLookups 3000000 12000) sampleCourier 11 {extraCost:=some 200000} (some "c")]

theorem cancel_cost_left :
    ((∃ rows,Ledger 11 (serve sampleTable 12 cancelledOnce inTurn).log rows) ∧
    (∀ rows,Ledger 11 (serve sampleTable 12 cancelledOnce inTurn).log rows → extraCostTotal rows 11 = -200000) ∧
    standingCost 11 (serve sampleTable 12 cancelledOnce inTurn).log = 0 ∧
    statusAt (serve sampleTable 12 cancelledOnce inTurn).table 11 = some .waiting ∧
    ∀ before back after,(serve sampleTable 12 cancelledOnce inTurn).log = before ++ back :: after → back.note.call.rollsBack 11 = true →
      RollbackFinds 11 (standingCost 11 before) back) ∧
    (∀ rows,Ledger 11 (serve sampleTable 12 soldTwice inTurn).log rows → extraCostTotal rows 11 = 0) ∧
    standingCost 11 (serve sampleTable 12 soldTwice inTurn).log = 200000 := by
  have costs : costsOf 11 (serve sampleTable 12 cancelledOnce inTurn).log = [(.cancelExtraCost,-200000)] := by decide +kernel
  have twice : costsOf 11 (serve sampleTable 12 soldTwice inTurn).log =
      [(.sellExtraCost,-200000),(.correction,200000)] ++ [(.sellExtraCost,-200000)] := by decide +kernel
  refine ⟨⟨ledger_exists 11 _,?_,by decide +kernel,by decide +kernel,?_⟩,?_,by decide +kernel⟩
  · intro rows ledger
    have recorded := ledger_recorded ledger (by rw [costs]; simp)
    rw [costs] at recorded
    exact recorded_sum recorded (by simp [Apart]) (by simp [FinancialSource.ofExtraCost])
  · apply charge_found
    · intro lookups requester targetStatus requestId listed
      simp only [cancelledOnce,chargedCancel,chargedRollback,List.mem_cons,List.not_mem_nil,or_false,reduceCtorEq,false_or] at listed
      cases listed
      rfl
    · decide +kernel
  · intro rows ledger
    have recorded := ledger_recorded ledger (by rw [twice]; simp)
    rw [twice] at recorded
    have first : (FinancialSource.sellExtraCost,(-200000 : Int)) ∈ [(FinancialSource.sellExtraCost,(-200000 : Int)),(.correction,200000)] := by simp
    rcases recorded_again recorded (by simp [Apart]) (by simp [FinancialSource.ofExtraCost]) first with kept | replaced
    · exact kept
    · exact replaced

end Elchi.Orders
