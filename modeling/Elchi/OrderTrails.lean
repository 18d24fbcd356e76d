import Elchi.OrderPassages
import Elchi.Trails
namespace Elchi.Batches
open Orders RowLock Trails

-- A custody event is handed on by one holder to another.
def CustodyEvent.leaves (event : CustodyEvent) (holder : Holder) : Prop :=
  event.fromHolderType = some holder.holderType ∧ event.fromBranchId = holder.holderBranchId ∧ event.fromCourierId = holder.holderCourierId
def CustodyEvent.reaches (event : CustodyEvent) (holder : Holder) : Prop := event.holder = holder

theorem between_leaves (before after : Holder) : (between before after).leaves before := ⟨rfl,rfl,rfl⟩
theorem passed_follows {before after : Standing} {trail : List CustodyEvent}
    (follows : Follows CustodyEvent.leaves CustodyEvent.reaches trail before.holder) :
    Follows CustodyEvent.leaves CustodyEvent.reaches (trail ++ passed before after) after.holder := by
  unfold passed
  split
  · rename_i same
    rw [List.append_nil,←same]
    exact follows
  · exact follows.add (between_leaves _ _) rfl

-- No rollback has deleted the order, and its holder is the one the events end with.
def Handed (thread : Thread) : Prop :=
  match thread.order with
  | none => True
  | some order => order.isDeleted = false ∧ Follows CustodyEvent.leaves CustodyEvent.reaches thread.custody order.holder

theorem change_kept {id : Nat} (change : Change depot op id before after) (steady : op.rollsBack = false) :
    after.isDeleted = before.isDeleted := by
  cases change with
  | edited _ kept _ => exact kept
  | removed _ rolls => rw [steady] at rolls; cases rolls
  | provided _ _ _ _ => rfl
  | received _ _ _ _ _ => rfl
  | requeued _ _ => rfl
theorem passage_handed {id : Nat} {before after : Thread} (passage : Passage depot op stop id before after) (steady : op.rollsBack = false)
    (held : Handed before) : Handed after := by
  cases passage with
  | kept _ => exact held
  | created order lookups resolves holder kept => exact ⟨kept,follows_one rfl⟩
  | changed change =>
    obtain ⟨kept,follows⟩ := held
    exact ⟨(change_kept change steady).trans kept,passed_follows follows⟩
  | closed status differs =>
    obtain ⟨kept,follows⟩ := held
    exact ⟨kept,follows.add (between_leaves _ _) rfl⟩
  | sent moved told _ _ =>
    cases moved with
    | false => exact held
    | true => exact held
  | unknown holder gone =>
    -- only a rollback deletes orders
    obtain ⟨kept,-⟩ := held
    rw [gone] at kept
    cases kept

-- The custody events of every order link up and end with its holder.
theorem custody_links {ops : List Op} (steady : ∀ op ∈ ops,op.rollsBack = false) :
    ∀ front,front <+: ops → ∀ id row,(performAll emptyDepot front).orders.row id = some row →
      Follows CustodyEvent.leaves CustodyEvent.reaches (slice (performAll emptyDepot front).custody id) (holderOf row.order) := by
  intro front reached id row here
  have held : Stocked (performAll emptyDepot front) ∧ ∀ id,Handed ((performAll emptyDepot front).thread id) := by
    apply Runs.run_keeps_reached (P:=fun depot => Stocked depot ∧ ∀ id,Handed (depot.thread id)) ?_ ⟨stocked_empty,?_⟩
      (Runs.meets_mem steady) reached
    · rintro depot op ⟨stocked,held⟩ unrolled
      refine ⟨perform_stocked stocked op,fun id => ?_⟩
      obtain ⟨stop,same⟩ := perform_until op depot
      rw [same]
      exact passage_handed (passage stocked op stop id) unrolled (held id)
    · exact fun id => trivial
  have thread := held.2 id
  rw [thread_some here] at thread
  exact thread.2

def journey : List Op := [parcel 100,parcel 250,.createTransfer 10 transfer,.send 11 1 "ff" (truck [1]),.receive 12 2 (some 9)]
theorem custody_links_journey : ∃ row,(performAll emptyDepot journey).orders.row 1 = some row ∧
    holderOf row.order = ⟨.branch,some 4,none⟩ ∧
    Follows CustodyEvent.leaves CustodyEvent.reaches (slice (performAll emptyDepot journey).custody 1) (holderOf row.order) ∧
    slice (performAll emptyDepot journey).custody 1 =
      [⟨none,none,none,⟨.branch,some 2,none⟩⟩,⟨some .branch,some 2,none,⟨.branch,some 4,none⟩⟩] := by
  have after : performAll emptyDepot journey = performAll packed (journey.drop 3) := by
    rw [←twoParcels_packed]
    rfl
  have held : ((performAll packed (journey.drop 3)).orders.row 1).map (holderOf ·.order) = some ⟨.branch,some 4,none⟩ := by decide
  have logged : slice (performAll packed (journey.drop 3)).custody 1 =
      [⟨none,none,none,⟨.branch,some 2,none⟩⟩,⟨some .branch,some 2,none,⟨.branch,some 4,none⟩⟩] := by decide
  rw [←after] at held logged
  obtain ⟨row,here,holder⟩ := Option.map_eq_some_iff.mp held
  exact ⟨row,here,holder,custody_links (by decide) journey (List.prefix_refl _) 1 row here,logged⟩

-- The timeline of an order leaves the status it is in; it starts under the initial status.
def TrackingEvent.leaves (event : TrackingEvent) (status : OrderStatus) : Prop := event.fromStatus = some status
def TrackingEvent.reaches (event : TrackingEvent) (status : OrderStatus) : Prop :=
  match event.fromStatus with
  | none => event.toStatus = mapInitialStatusForTracking status
  | some _ => event.toStatus = status

theorem stepped_follows {before after : Standing} {trail : List TrackingEvent}
    (follows : Follows TrackingEvent.leaves TrackingEvent.reaches trail before.status) :
    Follows TrackingEvent.leaves TrackingEvent.reaches (trail ++ stepped before after) after.status := by
  unfold stepped
  split
  · rename_i same
    rw [List.append_nil,←same]
    exact follows
  · exact follows.add rfl rfl
def Replays (thread : Thread) : Prop :=
  match thread.order with
  | none => True
  | some order => Follows TrackingEvent.leaves TrackingEvent.reaches thread.tracking order.status

-- A send tells of the orders it moves, and of no other.
def TellsMoves (depot : Depot) (op : Op) (stop : Nat) : Prop := ∀ id,Moves depot op stop id ↔ Tells depot op stop id
theorem passage_replays {id : Nat} {before after : Thread} (passage : Passage depot op stop id before after)
    (tells : TellsMoves depot op stop) (held : Replays before) : Replays after := by
  cases passage with
  | kept _ => exact held
  | created order lookups resolves holder kept => exact follows_one rfl
  | changed change => exact stepped_follows held
  | closed status differs => exact Follows.add held rfl rfl
  | sent moved told moves telling =>
    have same : moved = told := Bool.eq_iff_iff.mpr (moves.trans ((tells id).trans telling.symm))
    subst same
    cases moved with
    | false => simpa [Replays] using held
    | true => exact Follows.add held rfl rfl
  | unknown holder gone => exact held

-- Runs in which an operation may stop after any of its commits.
def performUntilAll : Depot → List (Op × Nat) → Depot := Runs.runFrom fun depot step => step.1.performUntil step.2 depot
def MeetsUntil (cond : Depot → Op → Nat → Prop) : Depot → List (Op × Nat) → Prop :=
  Runs.Meets (fun depot step => step.1.performUntil step.2 depot) fun depot step => cond depot step.1 step.2
theorem tracking_replays {steps : List (Op × Nat)} (tells : MeetsUntil TellsMoves emptyDepot steps) :
    ∀ front,front <+: steps → ∀ id row,(performUntilAll emptyDepot front).orders.row id = some row →
      Follows TrackingEvent.leaves TrackingEvent.reaches (slice (performUntilAll emptyDepot front).tracking id) row.order.status := by
  intro front reached id row here
  have held : Stocked (performUntilAll emptyDepot front) ∧ ∀ id,Replays ((performUntilAll emptyDepot front).thread id) := by
    apply Runs.run_keeps_reached (P:=fun depot => Stocked depot ∧ ∀ id,Replays (depot.thread id)) ?_ ⟨stocked_empty,?_⟩ tells reached
    · rintro depot ⟨op,stop⟩ ⟨stocked,held⟩ telling
      exact ⟨until_stocked stocked op stop,fun id => passage_replays (passage stocked op stop id) telling (held id)⟩
    · exact fun id => trivial
  have thread := held.2 id
  rw [thread_some here] at thread
  exact thread

theorem until_whole {op : Op} {result : Except RpcError Depot} (one : op.commits depot = oneCommit result) (n : Nat) :
    op.performUntil (n+1) depot = op.perform depot := by
  unfold Op.performUntil Op.perform
  rw [one]
  cases result with
  | error _ => rfl
  | ok next => simp [oneCommit,Except.map]
theorem packed_until : performUntilAll emptyDepot [(parcel 100,1),(parcel 250,1),(.createTransfer 10 transfer,1)] = packed := by
  rw [←twoParcels_packed,←until_whole rfl 0]
  rfl
def loading (orderIds : List Nat) (stop : Nat) : List (Op × Nat) :=
  [(parcel 100,1),(parcel 250,1),(.createTransfer 10 transfer,1),(.send 11 1 "ff" (truck orderIds),stop)]
theorem loading_tells : MeetsUntil TellsMoves emptyDepot (loading [1] 9) := by
  have sends : TellsMoves packed (.send 11 1 "ff" (truck [1])) 9 := by
    intro id
    have dispatches : Dispatches packed 1 (truck [1]) {newBatch 10 2 4 .forward 3 "transfer-1" with orderCount:=2,totalPrice:=350}
        [⟨1,1,100,7,none,false⟩] := ⟨rfl,rfl,rfl,rfl,rfl⟩
    have upTo : toldBy 11 1 "ff" {newBatch 10 2 4 .forward 3 "transfer-1" with orderCount:=2,totalPrice:=350}
        [⟨1,1,100,7,none,false⟩] packed 9 = some 4 := by decide
    have departs : departing [1] packed = [1] := by decide
    have bound : packed.pointer 1 = some 1 := by decide
    obtain ⟨moves,tells⟩ := moves_iff dispatches upTo id
    rw [moves,tells,List.map_singleton,departs]
    constructor
    · exact fun moved => moved.1
    · intro told
      cases List.mem_singleton.mp told
      exact ⟨told,bound⟩
  rw [←packed_until] at sends
  exact ⟨fun _ => Iff.rfl,fun _ => Iff.rfl,fun _ => Iff.rfl,sends,trivial⟩
theorem tracking_replays_loading : ∃ row,(performUntilAll emptyDepot (loading [1] 9)).orders.row 1 = some row ∧
    row.order.status = .onTheRoad ∧
    Follows TrackingEvent.leaves TrackingEvent.reaches (slice (performUntilAll emptyDepot (loading [1] 9)).tracking 1) row.order.status := by
  have after : performUntilAll emptyDepot (loading [1] 9) = (Op.send 11 1 "ff" (truck [1])).performUntil 9 packed := by
    rw [←packed_until]
    rfl
  have left : ((performUntilAll emptyDepot (loading [1] 9)).orders.row 1).map (·.order.status) = some .onTheRoad := by
    rw [after]
    decide
  obtain ⟨row,here,status⟩ := Option.map_eq_some_iff.mp left
  exact ⟨row,here,status,tracking_replays loading_tells _ (List.prefix_refl _) 1 row here⟩

-- A send that fails after its update of the orders leaves them on the road with no event.
theorem tracking_breaks : ¬∀ steps id row,(performUntilAll emptyDepot steps).orders.row id = some row →
    Follows TrackingEvent.leaves TrackingEvent.reaches (slice (performUntilAll emptyDepot steps).tracking id) row.order.status := by
  intro all
  have after : performUntilAll emptyDepot (loading [1,2] 3) = (Op.send 11 1 "ff" (truck [1,2])).performUntil 3 packed := by
    rw [←packed_until]
    rfl
  have left : ((performUntilAll emptyDepot (loading [1,2] 3)).orders.row 1).map (·.order.status) = some .onTheRoad := by
    rw [after]
    decide
  have told : slice (performUntilAll emptyDepot (loading [1,2] 3)).tracking 1 = [⟨none,.created⟩] := by
    rw [after]
    decide
  obtain ⟨row,here,status⟩ := Option.map_eq_some_iff.mp left
  have follows := all _ 1 row here
  rw [told,status] at follows
  cases follows.ends ⟨none,.created⟩ rfl

end Elchi.Batches
