import Elchi.RemittanceSafety
import Mathlib.Data.List.Induction
namespace Elchi.Remittances
open RowLock hiding Machine Turn
open Interleaving
open Webhooks (Receivable Drive Fate)
open Batches (select_keyed)

-- Each receivable is counted by one remittance at most, which is the one it is marked with; a
-- remittance's count is that of the receivables marked with it; and without order ids the settled
-- rows are the longest front of the rows read that the amount covers.
structure SettledOnce (m : Machine Books Clerk) : Prop where
  marked : ∀ (who : Nat) tx answer,m.workers[who]? = some (.remitted tx answer) → ∀ entry ∈ tx.settled,m.shared.mark entry.1 = some tx.remittanceId
  once : ∀ (a b : Nat) ta tb left right,m.workers[a]? = some (.remitted ta left) → m.workers[b]? = some (.remitted tb right) →
    ∀ id,id ∈ ta.settled.map (·.1) → id ∈ tb.settled.map (·.1) → a = b
  distinct : ∀ (who : Nat) tx answer,m.workers[who]? = some (.remitted tx answer) → Table.Keyed tx.settled
  counted : ∀ entry ∈ m.shared.remittances,
    entry.2.settledCount = (m.shared.receivables.filter fun row => row.2.remittanceId == some entry.1).length
  amounts : ∀ (who : Nat) tx answer,m.workers[who]? = some (.remitted tx answer) → answer.settledAmount = sumOf tx.settled ∧
    answer.settledCount = tx.settled.length ∧ answer.settledAmount + answer.unappliedAmount = tx.input.amount
  oldest : ∀ (who : Nat) tx answer,m.workers[who]? = some (.remitted tx answer) → tx.input.orderIds = [] →
    tx.settled <+: tx.pending ∧ sumOf tx.settled ≤ tx.input.amount ∧
      ∀ front,front <+: tx.pending → sumOf front ≤ tx.input.amount → front <+: tx.settled

theorem marked_count {g : Books} (kept : Kept g) (member : entry ∈ g.remittances) :
    entry.2.settledCount = (g.receivables.filter fun row => row.2.remittanceId == some entry.1).length := by
  obtain ⟨ids,distinct,counted,marks⟩ := kept.counted entry member
  have listed : Table.Keyed (g.receivables.filter fun row => row.2.remittanceId == some entry.1) :=
    select_keyed kept.keyed fun _ row => row.remittanceId == some entry.1
  have same : ids.Perm ((g.receivables.filter fun row => row.2.remittanceId == some entry.1).map (·.1)) := by
    refine (List.perm_ext_iff_of_nodup distinct listed).mpr fun id => ?_
    rw [← marks id,List.mem_map]
    constructor
    · intro marked
      obtain ⟨row,here,mine⟩ := Option.bind_eq_some_iff.mp marked
      exact ⟨(id,row),List.mem_filter.mpr ⟨(row_exact kept.keyed).mpr here,by simpa using mine⟩,rfl⟩
    · intro there
      obtain ⟨⟨key,row⟩,present,rfl⟩ := there
      obtain ⟨stored,mine⟩ := List.mem_filter.mp present
      have here : g.receivables.row key = some row := (row_exact kept.keyed).mp stored
      simp only [Books.mark,here,Option.bind_some]
      simpa using mine
  rw [← counted,same.length_eq,List.length_map]
theorem holds_settled {m : Machine Books Clerk} (holds : m.Holds (fun _ g => Kept g) At) (distinct : Distinct m) : SettledOnce m where
  marked who tx answer here := (holds.2 who _ here).2.2.2
  once a b ta tb left right hereA hereB id inA inB := by
    obtain ⟨rowA,memberA,rfl⟩ := List.mem_map.mp inA
    obtain ⟨rowB,memberB,same⟩ := List.mem_map.mp inB
    have markA := (holds.2 a _ hereA).2.2.2 rowA memberA
    have markB := (holds.2 b _ hereB).2.2.2 rowB memberB
    rw [same,markA] at markB
    refine distinct.apart a b tb.remittanceId ?_ ?_
    · simp only [remittanceAt,hereA,Option.bind_some]
      exact markB
    · simp only [remittanceAt,hereB,Option.bind_some]
      rfl
  distinct who tx answer here := settled_keyed (holds.2 who _ here).1
  counted entry member := marked_count holds.1 member
  amounts who tx answer here := by
    obtain ⟨progress,-,rfl,-⟩ := holds.2 who _ here
    refine ⟨progress.amount,progress.count,?_⟩
    simp only [Settling.answer]
    omega
  oldest who tx answer here free := by
    obtain ⟨progress,stopped,-,-⟩ := holds.2 who _ here
    exact ⟨⟨tx.rest,progress.split.symm⟩,progress.covered free,fun front reached fits => stop_longest progress stopped free reached fits⟩

-- The rows a transaction works on are the pending ones of the moment it has read them.
def Clerk.reading : Clerk → Option (RemittanceInput × Table Receivable)
  | .opening input pending => some (input,pending)
  | .settling tx | .counting tx | .committing tx | .remitted tx _ => some (tx.input,tx.pending)
  | _ => none
theorem next_reading (integrations : List Nat) (who : Nat) (fate : Fate) (g : Books) (clerk : Clerk) :
    (nextStatement integrations who fate g clerk).2.reading = none ∨
    (nextStatement integrations who fate g clerk).2.reading = clerk.reading ∨
    ∃ input,(nextStatement integrations who fate g clerk).2.reading = some (input,pendingRows input g.receivables) := by
  have goes : (clerk.go integrations who g).2.reading = none ∨ (clerk.go integrations who g).2.reading = clerk.reading ∨
      ∃ input,(clerk.go integrations who g).2.reading = some (input,pendingRows input g.receivables) := by
    have proposes : ∀ write,(proposed g write).2.reading = none := fun write => by cases write <;> rfl
    cases clerk with
    | remitting input =>
      simp only [Clerk.go]
      split
      · exact .inl rfl
      · split <;> exact .inl rfl
    | finding input => exact .inr (.inr ⟨input,rfl⟩)
    | settling tx =>
      simp only [Clerk.go]
      split
      · exact .inr (.inl rfl)
      · split <;> exact .inr (.inl rfl)
    | recording integrationId drive amount => exact .inl (proposes _)
    | cancelling integrationId orderId => exact .inl (proposes _)
    | saving write =>
      cases write with
      | save id row => simp only [Clerk.go]; split <;> exact .inl rfl
      | insert row => simp only [Clerk.go]; split <;> exact .inl rfl
    | _ => exact .inr (.inl rfl)
  unfold nextStatement
  split
  · exact .inr (.inl rfl)
  · cases fate with
    | goes => exact goes
    | fails => exact .inl rfl
    | lost => exact .inl rfl
    | dies => exact .inl rfl
theorem read_before (integrations : List Nat) (start : Books) (turns : List BooksTurn) {who : Nat} {clerk : Clerk} {input : RemittanceInput}
    {pending : Table Receivable} (here : ((receivableBooks integrations).run start turns).workers[who]? = some clerk)
    (reads : clerk.reading = some (input,pending)) :
    ∃ front,front <+: turns ∧ pending = pendingRows input ((receivableBooks integrations).run start front).shared.receivables := by
  induction turns using List.reverseRecOn generalizing clerk with
  | nil =>
    simp only [System.run,Runs.runFrom,List.foldl_nil,List.getElem?_nil,reduceCtorEq] at here
  | append_singleton turns turn ih =>
    have earlier : ∀ {clerk},((receivableBooks integrations).run start turns).workers[who]? = some clerk → clerk.reading = some (input,pending) →
        ∃ front,front <+: turns ++ [turn] ∧ pending = pendingRows input ((receivableBooks integrations).run start front).shared.receivables := by
      intro clerk here reads
      obtain ⟨front,reached,same⟩ := ih here reads
      exact ⟨front,reached.trans (List.prefix_append _ _),same⟩
    rw [run_snoc] at here
    cases turn with
    | arrive request =>
      rw [look_arrive] at here
      split at here
      · cases request <;> cases here <;> cases reads
      · exact earlier here reads
    | world ms => exact earlier here reads
    | step other fate =>
      cases there : ((receivableBooks integrations).run start turns).workers[other]? with
      | none =>
        rw [idle_step there] at here
        exact earlier here reads
      | some stepping =>
        rw [look_step there] at here
        split at here
        · rename_i same
          subst same
          cases here
          obtain none | old | ⟨asked,new⟩ := next_reading integrations who fate ((receivableBooks integrations).run start turns).shared stepping
          · cases none.symm.trans reads
          · exact earlier there (old.symm.trans reads)
          · cases new.symm.trans reads
            exact ⟨turns,List.prefix_append _ _,rfl⟩
        · exact earlier here reads

theorem start_kept (now : Nat) : Kept (.start now) where
  keyed := List.nodup_nil
  below id row here := by cases here
  tidy id row here := by cases here
  exclusive id a b left := by cases left
  booked entry member := by cases member
  issued id remittanceId marked := by cases marked
  counted entry member := by cases member
-- One receivable of 100. Two remittances that both read it as pending both count it; and one that
-- is cancelled from such a reading loses its mark while the remittance keeps the count.
def owed : Drive := ⟨11,.sell,some "cargo",some "R-11"⟩
def paid (amount : Int) : RemittanceInput := ⟨4,amount,none,none,[],some 1⟩
def recorded : List BooksTurn := [.arrive (.record 4 owed 100),.step 0 .goes,.step 0 .goes]
def each (who count : Nat) : List BooksTurn := List.replicate count (.step who .goes)
def bothRemit : List BooksTurn := recorded ++ [.arrive (.remit (paid 100)),.arrive (.remit (paid 150))] ++ each 1 2 ++ each 2 2 ++ each 1 5 ++ each 2 5
def cancelsLate : List BooksTurn := recorded ++ [.arrive (.remit (paid 100)),.arrive (.cancel 4 11)] ++ each 2 1 ++ each 1 7 ++ each 2 1
def Clerk.settledIds : Clerk → Option (List Nat)
  | .remitted tx _ => some (tx.settled.map (·.1))
  | _ => none
theorem settledIds_remitted {clerk : Clerk} (settles : clerk.settledIds = some ids) :
    ∃ tx answer,clerk = .remitted tx answer ∧ tx.settled.map (·.1) = ids := by
  cases clerk with
  | remitted tx answer => exact ⟨tx,answer,rfl,Option.some_inj.mp settles⟩
  | _ => cases settles
-- A remittance that ends before the next one reads, which then finds the row recorded meanwhile.
def oneAfterAnother : List BooksTurn :=
  recorded ++ [.arrive (.remit (paid 100)),.arrive (.record 4 {owed with orderId:=12} 70)] ++ each 1 3 ++ each 2 1 ++ each 1 4 ++ each 2 1 ++
    [.world 8,.arrive (.remit (paid 90))] ++ each 3 7
end Elchi.Remittances
