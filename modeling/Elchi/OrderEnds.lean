import Elchi.OrderTrails
namespace Elchi.Batches
open Orders RowLock

-- A forward send carried out to its end, of an order still bound to its batch.
def Departs (depot : Depot) (op : Op) (id : Nat) : Prop :=
  match op with
  | .send now batchId random input => ∃ batch toMark,Dispatches depot batchId input batch toMark ∧
      (leavesWhole now batchId toMark depot = true ∨ depot.keyTaken batch.sourceBranchId (splitKey now batchId random) = false) ∧
      id ∈ departing (toMark.map (·.orderId)) depot ∧ depot.pointer id = some batchId
  | _ => False
theorem moves_departs {id : Nat} (moves : Moves depot op stop id) : Departs depot op id := by
  cases op with
  | send now batchId random input =>
    obtain ⟨batch,toMark,n,dispatches,upTo,departs⟩ := moves
    refine ⟨batch,toMark,dispatches,?_,departs⟩
    unfold toldBy at upTo
    split at upTo
    · rename_i whole
      exact .inl whole
    · split at upTo
      · rename_i part
        exact .inr part.1
      · cases upTo
  | _ => cases moves
theorem departs_live {id : Nat} (departs : Departs depot op id) (here : depot.orders.row id = some row) : live row.order = true := by
  cases op with
  | send now batchId random input =>
    obtain ⟨batch,toMark,-,-,listed,-⟩ := departs
    exact ((mem_departing here).mp listed).2.1
  | _ => cases departs

-- No batch writes the status of an order that is back with its market, and no provider
-- reports on one, nor a sale of a closed order.
structure LeavesEnded (depot : Depot) (op : Op) : Prop where
  batches : ∀ id row,depot.orders.row id = some row → row.order.isDeleted = false → row.order.status = .returnedToMarket →
    ¬Departs depot op id ∧ (∀ branchId,¬Arrives depot op id branchId) ∧ ¬Requeues depot op id
  provider : ∀ id row action,depot.orders.row id = some row → row.order.isDeleted = false → op.Provides id action →
    row.order.status ≠ .returnedToMarket ∧ (action = .sell → row.order.status ≠ .closed)

theorem returned_ends {status : OrderStatus} (valid : isValidStatusTransition .returnedToMarket status = true) :
    status = .returnedToMarket := by
  have same : OrderStatus.returnedToMarket = status := by simpa [isValidStatusTransition,transitions] using valid
  exact same.symm
def Returned (thread : Thread) : Prop := ∃ order,thread.order = some order ∧ order.status = .returnedToMarket
theorem change_returned {id : Nat} {before after : Standing} (change : Change depot op id before after) (ended : LeavesEnded depot op)
    (here : depot.orders.row id = some row) (same : standing row.order = before) (returned : before.status = .returnedToMarket) :
    after.status = .returnedToMarket := by
  subst same
  cases change with
  | edited valid _ _ =>
    rw [returned] at valid
    exact returned_ends valid
  | removed _ _ => exact returned
  | provided action provides _ kept => exact absurd returned (ended.provider id row action here kept provides).1
  | received branchId status arrives kept _ => exact absurd arrives ((ended.batches id row here kept returned).2.1 branchId)
  | requeued requeues kept => exact absurd requeues (ended.batches id row here kept returned).2.2
theorem passage_returned {id : Nat} {after : Thread} (passage : Passage depot op stop id (depot.thread id) after)
    (ended : LeavesEnded depot op) (returned : Returned (depot.thread id)) : Returned after := by
  obtain ⟨order,there,status⟩ := returned
  obtain ⟨row,here,rfl⟩ := Option.map_eq_some_iff.mp there
  rw [thread_some here] at passage
  cases passage with
  | kept _ => exact ⟨_,rfl,status⟩
  | changed change => exact ⟨_,rfl,change_returned change ended here rfl status⟩
  | closed _ differs => exact absurd status differs
  | sent moved told moves _ =>
    cases moved with
    | false => exact ⟨_,rfl,status⟩
    | true =>
      have departs := moves_departs (moves.mp rfl)
      exact absurd departs (ended.batches id row here (live_kept (departs_live departs here)) status).1
  | unknown _ gone => exact ⟨_,rfl,status⟩

-- A provider's report on an ended order finds it already applied.
theorem provider_applied {id : Nat} (ended : LeavesEnded depot (.markByProvider now id action)) (here : depot.orders.row id = some row)
    (ends : row.order.status = .closed ∨ row.order.status = .returnedToMarket) (kind : action ≠ .handBack) :
    ((Op.markByProvider now id action).perform depot).orders.row id = some row := by
  rw [perform_one rfl]
  apply orKeep_keeps (P:=fun next => next.orders.row id = some row) here
  intro next done
  obtain ⟨found,there,alive,rfl | ⟨fresh,-⟩⟩ := markByProvider_parts done
  · exact here
  · rw [here] at there
    cases there
    obtain ⟨unreturned,unsold⟩ := ended.provider id row action here (live_kept alive) ⟨rfl,rfl⟩
    rcases ends with closed | returned
    · cases action with
      | sell => exact absurd closed (unsold rfl)
      | cancel => rw [closed] at fresh; cases fresh
      | handBack => exact absurd rfl kind
    · exact absurd returned unreturned

theorem returned_is_terminal {front rest : List Op} (ended : MeetsAll LeavesEnded emptyDepot (front ++ rest)) (id : Nat) :
    (∀ row,(performAll emptyDepot front).orders.row id = some row → row.order.status = .returnedToMarket →
      ∃ later,(performAll emptyDepot (front ++ rest)).orders.row id = some later ∧ later.order.status = .returnedToMarket) ∧
    ∀ now action tail,rest = .markByProvider now id action :: tail → action ≠ .handBack →
      ∀ row,(performAll emptyDepot front).orders.row id = some row →
        row.order.status = .closed ∨ row.order.status = .returnedToMarket →
        (performAll emptyDepot (front ++ [.markByProvider now id action])).orders.row id = some row := by
  constructor
  · intro row here status
    have returned : Returned ((performAll emptyDepot front).thread id) := ⟨standing row.order,by rw [thread_some here],status⟩
    have later : Returned ((performAll emptyDepot (front ++ rest)).thread id) := by
      apply Runs.run_keeps_later (P:=Stocked) (Q:=fun depot => Returned (depot.thread id)) (fun depot op stocked _ => perform_stocked stocked op) ?_
        stocked_empty ended returned
      intro depot op stocked met held
      obtain ⟨stop,same⟩ := perform_until op depot
      rw [same]
      exact passage_returned (passage stocked op stop id) met held
    obtain ⟨order,there,status⟩ := later
    obtain ⟨last,found,rfl⟩ := Option.map_eq_some_iff.mp there
    exact ⟨last,found,status⟩
  · rintro now action tail rfl kind row here ends
    obtain ⟨-,met,-⟩ := Runs.meets_append.mp ended
    have same : performAll emptyDepot (front ++ [.markByProvider now id action]) =
        (Op.markByProvider now id action).perform (performAll emptyDepot front) := Runs.runFrom_append front _
    rw [same]
    exact provider_applied met here ends kind

-- One order handed back to its market at its home branch, and one that is closed.
def handedBack : List Op := [parcel 100,.updateFull hub none 1 {returnRequested:=some true},.markReturned hub 1]
def closedToo : List Op := handedBack ++ [.create hub none {marketId:=7,customerId:=8,branchId:=some 2,status:=some .closed} none "token"]
theorem closedToo_ended : MeetsAll LeavesEnded emptyDepot (closedToo ++ [.markByProvider 20 2 .cancel]) := by
  have idle : ∀ {depot : Depot} {op : Op},(∀ id,¬Departs depot op id) → (∀ id branchId,¬Arrives depot op id branchId) →
      (∀ id,¬Requeues depot op id) → (∀ id action,¬op.Provides id action) → LeavesEnded depot op :=
    fun departs arrives requeues provides =>
      ⟨fun id _ _ _ _ => ⟨departs id,arrives id,requeues id⟩,fun id _ action _ _ provided => absurd provided (provides id action)⟩
  refine ⟨idle (fun _ => id) (fun _ _ => id) (fun _ => id) (fun _ _ => id),idle (fun _ => id) (fun _ _ => id) (fun _ => id) (fun _ _ => id),
    idle (fun _ => id) (fun _ _ => id) (fun _ => id) (fun _ _ => id),idle (fun _ => id) (fun _ _ => id) (fun _ => id) (fun _ _ => id),
    ⟨fun _ _ _ _ _ => ⟨id,fun _ => id,id⟩,?_⟩,trivial⟩
  rintro _ row _ here _ ⟨rfl,rfl⟩
  have status : ((performAll emptyDepot closedToo).orders.row 2).map (·.order.status) = some .closed := by decide
  have stored : (performAll emptyDepot closedToo).orders.row 2 = some row := here
  rw [stored,Option.map_some,Option.some.injEq] at status
  rw [status]
  exact ⟨(nomatch ·),(nomatch ·)⟩
theorem returned_is_terminal_closedToo : ((performAll emptyDepot (closedToo ++ [.markByProvider 20 2 .cancel])).orders.row 1).map
      (·.order.status) = some .returnedToMarket ∧
    ((performAll emptyDepot (closedToo ++ [.markByProvider 20 2 .cancel])).orders.row 2).map (·.order.status) = some .closed := by
  have first : ((performAll emptyDepot closedToo).orders.row 1).map (·.order.status) = some .returnedToMarket := by decide
  have second : ((performAll emptyDepot closedToo).orders.row 2).map (·.order.status) = some .closed := by decide
  obtain ⟨row,here,returned⟩ := Option.map_eq_some_iff.mp first
  obtain ⟨other,there,closed⟩ := Option.map_eq_some_iff.mp second
  obtain ⟨later,found,status⟩ := (returned_is_terminal closedToo_ended 1).1 row here returned
  have kept := (returned_is_terminal closedToo_ended 2).2 20 .cancel [] rfl (nomatch ·) other there (.inl closed)
  rw [found,kept,Option.map_some,Option.map_some,status,closed]
  exact ⟨rfl,rfl⟩

-- A provider's sale of an order that is back with its market.
theorem returned_sold : ¬∀ front rest id row,(performAll emptyDepot front).orders.row id = some row →
    row.order.status = .returnedToMarket →
      ∃ later,(performAll emptyDepot (front ++ rest)).orders.row id = some later ∧ later.order.status = .returnedToMarket := by
  intro all
  have first : ((performAll emptyDepot handedBack).orders.row 1).map (·.order.status) = some .returnedToMarket := by decide
  have sold : ((performAll emptyDepot (handedBack ++ [.markByProvider 20 1 .sell])).orders.row 1).map (·.order.status) = some .sold := by
    decide
  obtain ⟨row,here,returned⟩ := Option.map_eq_some_iff.mp first
  obtain ⟨later,found,status⟩ := all handedBack [.markByProvider 20 1 .sell] 1 row here returned
  rw [found,Option.map_some,status] at sold
  cases sold

end Elchi.Batches
