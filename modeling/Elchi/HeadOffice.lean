import Elchi.OrderEnds
namespace Elchi.Batches
open Orders RowLock

-- A branch and a courier that do not leave the order with the head office `hq`.
def Away (hq : Nat) (branchId courierId : Option Nat) : Prop := courierId ≠ none ∨ ∃ branch,branchId = some branch ∧ branch ≠ hq
-- The holder is computed for an order that is away, and no receipt takes one to the head office
-- or away from a courier its column still names.
structure StaysAway (hq : Nat) (depot : Depot) (op : Op) : Prop where
  resolves : ∀ lookups branchId courierId,Resolves depot op lookups branchId courierId →
    (∀ known ∈ lookups.hqBranchId,known = hq) ∧ Away hq branchId courierId
  arrives : ∀ id branchId row,Arrives depot op id branchId → depot.orders.row id = some row → row.order.isDeleted = false →
    branchId ≠ hq ∧ row.order.courierId = none

theorem away_resolves {hq : Nat} {lookups : Lookups} (known : ∀ branch ∈ lookups.hqBranchId,branch = hq) (away : Away hq branchId courierId)
    {other : Lookups} (knows : other.hqBranchId = some hq) :
    resolveHolderFromState lookups branchId courierId = resolveHolderFromState other branchId courierId := by
  cases courierId with
  | some courier => rfl
  | none =>
    obtain courier | ⟨branch,rfl,different⟩ := away
    · exact absurd rfl courier
    · have foreign : some branch ≠ lookups.hqBranchId := fun same => different (known branch same.symm)
      have elsewhere : some branch ≠ other.hqBranchId := by
        rw [knows]
        exact fun same => different (Option.some.inj same)
      simp only [resolveHolderFromState,if_neg foreign,if_neg elsewhere]
-- One form of custody: with the market, or where branch and courier say, which is not the head office.
def OneForm (hq : Nat) (order : Standing) : Prop :=
  order.holder.holderType = .market ∨ (Away hq order.branchId order.courierId ∧
    ∀ lookups : Lookups,lookups.hqBranchId = some hq → order.holder = resolveHolderFromState lookups order.branchId order.courierId)
def Formed (hq : Nat) (thread : Thread) : Prop :=
  match thread.order with
  | none => True
  | some order => OneForm hq order

theorem resolved_form {hq : Nat} {order : Standing} (known : ∀ branch ∈ lookups.hqBranchId,branch = hq)
    (away : Away hq order.branchId order.courierId)
    (holder : order.holder = resolveHolderFromState lookups order.branchId order.courierId) : OneForm hq order :=
  .inr ⟨away,fun _ knows => holder.trans (away_resolves known away knows)⟩
theorem change_form {hq id : Nat} {before after : Standing} (change : Change depot op id before after) (stays : StaysAway hq depot op)
    (here : depot.orders.row id = some row) (same : standing row.order = before) (form : OneForm hq before) : OneForm hq after := by
  subst same
  cases change with
  | edited _ _ holder =>
    rcases holder with ⟨branch,courier,held⟩ | ⟨lookups,resolves,held⟩
    · unfold OneForm
      rw [branch,courier,held]
      exact form
    · obtain ⟨known,away⟩ := stays.resolves lookups _ _ resolves
      exact resolved_form known away held
  | removed _ _ => exact form
  | provided _ _ _ _ => exact form
  | received branchId status arrives kept _ =>
    obtain ⟨different,noCourier⟩ := stays.arrives id branchId row arrives here kept
    have courier : (standing row.order).courierId = none := noCourier
    refine .inr ⟨.inr ⟨branchId,rfl,different⟩,fun lookups knows => ?_⟩
    have elsewhere : some branchId ≠ lookups.hqBranchId := by
      rw [knows]
      exact fun same => different (Option.some.inj same)
    simp only [Standing.arrived,courier,resolveHolderFromState,if_neg elsewhere]
  | requeued _ _ => exact form
theorem passage_form {hq id : Nat} {after : Thread} (passage : Passage depot op stop id (depot.thread id) after) (stays : StaysAway hq depot op)
    (form : Formed hq (depot.thread id)) : Formed hq after := by
  cases here : depot.orders.row id with
  | none =>
    rw [Depot.thread,here] at passage
    generalize slice depot.tracking id = tracking at passage
    generalize slice depot.custody id = custody at passage
    cases passage with
    | kept _ => trivial
    | created order lookups resolves holder _ =>
      obtain ⟨known,away⟩ := stays.resolves lookups _ _ resolves
      exact resolved_form known away holder
  | some row =>
    rw [thread_some here] at passage form
    cases passage with
    | kept _ => exact form
    | changed change => exact change_form change stays here rfl form
    | closed _ _ => exact .inl rfl
    | sent moved told _ _ =>
      cases moved with
      | false => exact form
      | true => exact form
    | unknown _ _ => exact form

theorem form_elsewhere {hq : Nat} {order : Standing} (form : OneForm hq order) : order.holder.holderType ≠ .hq ∧
    ¬(order.holder.holderType = .branch ∧ order.holder.holderBranchId = some hq) := by
  rcases form with market | ⟨away,held⟩
  · rw [market]
    exact ⟨(nomatch ·),fun both => nomatch both.1⟩
  · rw [held {hub with hqBranchId:=some hq} rfl]
    cases courier : order.courierId with
    | some _ => exact ⟨(nomatch ·),fun both => nomatch both.1⟩
    | none =>
      obtain carried | ⟨branch,named,different⟩ := away
      · exact absurd courier carried
      · have elsewhere : ¬some branch = some hq := fun same => different (Option.some.inj same)
        simp only [named,resolveHolderFromState,if_neg elsewhere]
        exact ⟨(nomatch ·),fun both => elsewhere both.2⟩

theorem journey_away : MeetsAll (StaysAway 1) emptyDepot journey := by
  have created : ∀ price depot,StaysAway 1 depot (parcel price) := by
    intro price depot
    refine ⟨?_,fun _ _ _ arrives => nomatch arrives⟩
    rintro lookups branchId courierId ⟨rfl,rfl,resolved,found,rfl⟩
    cases found
    exact ⟨fun known member => (Option.some.inj member).symm,.inr ⟨2,rfl,by decide⟩⟩
  have idle : ∀ {depot : Depot} {op : Op},(∀ lookups branchId courierId,¬Resolves depot op lookups branchId courierId) →
      (∀ id branchId,¬Arrives depot op id branchId) → StaysAway 1 depot op :=
    fun resolves arrives => ⟨fun lookups branchId courierId resolved => absurd resolved (resolves lookups branchId courierId),
      fun id branchId _ arrived => absurd arrived (arrives id branchId)⟩
  refine ⟨created 100 _,created 250 _,idle (fun _ _ _ => id) fun _ _ => id,idle (fun _ _ _ => id) fun _ _ => id,
    ⟨fun _ _ _ resolved => (nomatch resolved),?_⟩,trivial⟩
  have before : performAll emptyDepot (journey.take 4) = (Op.send 11 1 "ff" (truck [1])).perform packed := by
    rw [←twoParcels_packed]
    rfl
  have destination : ((performAll emptyDepot (journey.take 4)).batches.row 2).map (·.destinationBranchId) = some 4 := by
    rw [before]
    decide
  have couriers : ∀ entry ∈ (performAll emptyDepot (journey.take 4)).orders,entry.2.order.courierId = none := by
    rw [before]
    decide
  rintro id branchId row ⟨batch,stored,-,-,rfl⟩ here _
  have there : (performAll emptyDepot (journey.take 4)).batches.row 2 = some batch := stored
  rw [there,Option.map_some,Option.some.injEq] at destination
  rw [destination]
  exact ⟨by decide,couriers (id,row) ((row_exact (reached_stocked (journey.take 4)).keyed).mpr here)⟩
-- A receipt at the head office leaves the order with a branch, where the filter does not look.
def homeward : List Op :=
  [parcel 100,parcel 250,.createTransfer 10 {transfer with destinationBranchId:=1},.send 11 1 "ff" (truck [1,2]),.receive 12 1 (some 9)]
end Elchi.Batches
