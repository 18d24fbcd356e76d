import Elchi.SyncQueue
import Elchi.DepotRows
import Mathlib.Data.List.Sort
namespace Elchi.Syncing
open RowLock hiding Machine Turn
open Interleaving

section Ascending
variable {V : Type}

-- Rows in the order of their keys.
def Ascending (rows : Table V) : Prop := rows.Pairwise fun a b => a.1 < b.1
instance ascending_antisymm : Std.Antisymm fun a b : Nat × V => a.1 < b.1 where
  antisymm _ _ less more := absurd more (Nat.lt_asymm less)

theorem ascending_keyed {rows : Table V} (ascending : Ascending rows) : rows.Keyed :=
  List.Pairwise.map _ (fun _ _ less => Nat.ne_of_lt less) ascending
theorem ascending_sublist {left right : Table V} (first : Ascending left) (second : Ascending right) (inside : left ⊆ right) : left.Sublist right := by
  have distinct : left.Nodup := first.imp fun {a b} less same => by
    subst same
    exact Nat.lt_irrefl _ less
  exact List.sublist_of_subperm_of_pairwise (distinct.subperm inside) first second
theorem put_ascending {rows : Table V} (ascending : Ascending rows) {key : Nat} (below : ∀ k ∈ rows.map (·.1),k < key) (value : V) :
    Ascending (rows.put key value) := by
  induction rows with
  | nil => exact List.pairwise_singleton _ _
  | cons entry rest ih =>
    obtain ⟨first,tail⟩ := List.pairwise_cons.mp ascending
    have less : entry.1 < key := below entry.1 List.mem_cons_self
    simp only [Table.put,Nat.ne_of_lt less,if_false]
    refine List.pairwise_cons.mpr ⟨fun other member => ?_,ih tail fun k listed => below k (.tail _ listed)⟩
    obtain same | old := (put_keys_mem rest).mp (List.mem_map_of_mem member)
    · exact Nat.lt_of_lt_of_eq less same.symm
    · obtain ⟨old,listed,same⟩ := List.mem_map.mp old
      exact Nat.lt_of_lt_of_eq (first old listed) same
theorem save_ascending {rows : Table V} (ascending : Ascending rows) (key : Nat) (value : V) :
    Ascending ((Write.update key fun _ => value).apply rows) := by
  have keys := Batches.update_view (fun _ => ()) key (fun _ => value) (fun _ => rfl) rows
  have same := congrArg (List.map (·.1)) keys
  simp only [List.map_map,Function.comp_def] at same
  have sorted : (rows.map (·.1)).Pairwise (· < ·) := List.pairwise_map.mpr ascending
  rw [← same] at sorted
  exact List.pairwise_map.mp sorted

end Ascending

-- The requests the external system has accepted, oldest first.
def Event.acceptance : Event → Option (Nat × SyncItem)
  | .accepted id item => some (id,item)
  | _ => none
def Board.accepted (g : Board) : Table SyncItem := g.trail.filterMap Event.acceptance
def Board.has (g : Board) (id : Nat) : Prop := id ∈ g.accepted.map (·.1)

structure Same (row item : SyncItem) : Prop where
  target : row.target = item.target
  sent : row.sent = item.sent
def Taken (row : SyncItem) : Prop := row.status = .processing ∨ row.status = .completed
def NoNewer (g : Board) (id : Nat) (target : Nat × String) : Prop :=
  ∀ newer row,g.items.row newer = some row → id < newer → row.target = target → ¬ Taken row
def NoOlder (g : Board) (id : Nat) (target : Nat × String) : Prop :=
  ∀ older row,g.items.row older = some row → older < id → row.target = target → row.status ≠ .pending

-- What has been accepted for an order is in the order of the queue and not open any more, and behind
-- whatever is taken up nothing of its order is left pending.
structure Orderly (g : Board) : Prop where
  ascending : Ascending g.items
  below : ∀ id row,g.items.row id = some row → id < g.nextItemId
  stored : ∀ id item,(id,item) ∈ g.accepted → ∃ row,g.items.row id = some row ∧ Same row item ∧ Taken row
  sorted : g.accepted.Pairwise fun a b => a.2.target = b.2.target → a.1 < b.1
  behind : ∀ newer row,g.items.row newer = some row → Taken row → NoOlder g newer row.target
  completed : ∀ id row,g.items.row id = some row → row.status = .completed → g.has id

-- A save of a row, by the status it had and the one it gets.
inductive Move (who : Nat) (g : Board) (id : Nat) (row item : SyncItem) : Prop where
  | begins (mine : g.lock = some who) (was : row.status = .pending) (becomes : item.status = .processing) (foremost : NoOlder g id row.target)
  | ends (mine : g.lock = some who) (was : row.status = .processing) (becomes : ¬ Taken item) (unsent : ¬ g.has id) (last : NoNewer g id row.target)
  | completes (mine : g.lock = some who) (was : row.status = .processing) (becomes : item.status = .completed) (sent : g.has id)
  | resets (was : row.status = .failed ∨ row.status = .permanentlyFailed) (becomes : item.status = .pending) (last : NoNewer g id row.target)
inductive Effect (who : Nat) (g : Board) : Board → Prop where
  | keeps : Effect who g g
  | locks (free : g.lock = none) : Effect who g {g with lock:=some who}
  | inserts {item : SyncItem} (pending : item.status = .pending) : Effect who g (g.insert item)
  | saves {id : Nat} {row item : SyncItem} (events : List Event) (silent : events.filterMap Event.acceptance = [])
      (stored : g.items.row id = some row) (same : Same row item) (move : Move who g id row item) :
      Effect who g {g.save id item with trail:=g.trail ++ events}
  | accepts {id : Nat} {row item : SyncItem} (mine : g.lock = some who) (stored : g.items.row id = some row) (same : Same row item)
      (was : row.status = .processing) (unsent : ¬ g.has id) (last : NoNewer g id row.target) : Effect who g (g.note (.accepted id item))

section Rows
variable {g : Board} {who : Nat}

theorem silent_accepted {events : List Event} (silent : events.filterMap Event.acceptance = []) (id : Nat) (item : SyncItem) :
    Board.accepted {g.save id item with trail:=g.trail ++ events} = g.accepted := by
  simp only [Board.accepted,List.filterMap_append,silent,List.append_nil]
theorem note_accepted (id : Nat) (item : SyncItem) : (g.note (.accepted id item)).accepted = g.accepted ++ [(id,item)] := by
  simp [Board.accepted,Board.note,Event.acceptance]
theorem taken_not_open {row : SyncItem} (was : row.status = .failed ∨ row.status = .permanentlyFailed) : ¬ Taken row := by
  rintro (taken | taken) <;> rcases was with was | was <;> rw [was] at taken <;> cases taken
theorem pending_untaken {row : SyncItem} (was : row.status = .pending) : ¬ Taken row := by
  rintro (taken | taken) <;> rw [was] at taken <;> cases taken

-- Nothing of what a save leaves open has been accepted, and nothing newer is taken up.
theorem move_open {id : Nat} {row item : SyncItem} (orderly : Orderly g) (present : g.items.row id = some row) (move : Move who g id row item)
    (still : ¬ Taken item) : ¬ g.has id ∧ NoNewer g id row.target := by
  cases move with
  | begins _ _ becomes _ => exact absurd (.inl becomes) still
  | ends _ _ _ unsent last => exact ⟨unsent,last⟩
  | completes _ _ becomes _ => exact absurd (.inr becomes) still
  | resets was _ last =>
    refine ⟨fun has => ?_,last⟩
    obtain ⟨⟨key,sent⟩,member,rfl⟩ := List.mem_map.mp has
    obtain ⟨stored,here,-,taken⟩ := orderly.stored key sent member
    cases here.symm.trans present
    exact taken_not_open was taken
-- And behind what it takes up nothing is left pending.
theorem move_taken {id : Nat} {row item : SyncItem} (orderly : Orderly g) (present : g.items.row id = some row) (move : Move who g id row item)
    (taken : Taken item) : NoOlder g id row.target := by
  cases move with
  | begins _ _ _ foremost => exact foremost
  | ends _ _ becomes _ _ => exact absurd taken becomes
  | completes _ was _ _ => exact orderly.behind id row present (.inl was)
  | resets _ becomes _ => exact absurd taken (pending_untaken becomes)

theorem saves_orderly (orderly : Orderly g) {id : Nat} {row item : SyncItem} {events : List Event} (silent : events.filterMap Event.acceptance = [])
    (present : g.items.row id = some row) (same : Same row item) (move : Move who g id row item) :
    Orderly {g.save id item with trail:=g.trail ++ events} := by
  have acc := silent_accepted (g:=g) silent id item
  refine ⟨save_ascending orderly.ascending id item,fun other stored there => ?_,fun other sent member => ?_,by rw [acc]; exact orderly.sorted,
    fun newer later there taken older earlier before less shared waits => ?_,fun other stored there completed => ?_⟩
  · obtain ⟨rfl,rfl⟩ | ⟨-,old⟩ := saved_row present there
    · exact orderly.below id row present
    · exact orderly.below other stored old
  · rw [acc] at member
    obtain ⟨stored,here,alike,taken⟩ := orderly.stored other sent member
    by_cases mine : id = other
    · subst mine
      cases here.symm.trans present
      refine ⟨item,save_self present,⟨same.target.symm.trans alike.target,same.sent.symm.trans alike.sent⟩,?_⟩
      by_contra undone
      exact (move_open orderly present move undone).1 (List.mem_map.mpr ⟨_,member,rfl⟩)
    · refine ⟨stored,?_,alike,taken⟩
      change (g.save id item).items.row other = some stored
      rw [save_row,if_neg mine]
      exact here
  · obtain ⟨rfl,rfl⟩ | ⟨apartNewer,oldNewer⟩ := saved_row present there
    · obtain ⟨rfl,-⟩ | ⟨-,oldOlder⟩ := saved_row present before
      · exact Nat.lt_irrefl _ less
      · exact move_taken orderly present move taken older earlier oldOlder less (shared.trans same.target.symm) waits
    · obtain ⟨rfl,rfl⟩ | ⟨-,oldOlder⟩ := saved_row present before
      · exact (move_open orderly present move (pending_untaken waits)).2 newer later oldNewer less (shared.symm.trans same.target.symm) taken
      · exact orderly.behind newer later oldNewer taken older earlier oldOlder less shared waits
  · rw [Board.has,acc]
    obtain ⟨rfl,rfl⟩ | ⟨-,old⟩ := saved_row present there
    · cases move with
      | begins _ _ becomes _ => rw [becomes] at completed; cases completed
      | ends _ _ becomes _ _ => exact absurd (.inr completed) becomes
      | completes _ _ _ sent => exact sent
      | resets _ becomes _ => rw [becomes] at completed; cases completed
    · exact orderly.completed other stored old completed
theorem effect_orderly (orderly : Orderly g) (effect : Effect who g g') : Orderly g' := by
  cases effect with
  | keeps => exact orderly
  | locks _ => exact ⟨orderly.ascending,orderly.below,orderly.stored,orderly.sorted,orderly.behind,orderly.completed⟩
  | inserts pending =>
    rename_i item
    have fresh : ∀ {id row},g.items.row id = some row → id ≠ g.nextItemId := fun here same => Nat.lt_irrefl _ (same ▸ orderly.below _ _ here)
    refine ⟨put_ascending orderly.ascending (fun key listed => ?_) _,fun other stored there => ?_,fun other sent member => ?_,orderly.sorted,
      fun newer later there taken older earlier before less shared waits => ?_,fun other stored there completed => ?_⟩
    · obtain ⟨entry,member,rfl⟩ := List.mem_map.mp listed
      exact orderly.below entry.1 entry.2 ((row_exact (ascending_keyed orderly.ascending)).mp member)
    · obtain ⟨rfl,-⟩ | old := inserted_row there
      · exact Nat.lt_succ_self _
      · exact Nat.lt_succ_of_lt (orderly.below other stored old)
    · obtain ⟨stored,here,alike,taken⟩ := orderly.stored other sent member
      refine ⟨stored,?_,alike,taken⟩
      rw [insert_row,if_neg (Ne.symm (fresh here))]
      exact here
    · obtain ⟨rfl,rfl⟩ | oldNewer := inserted_row there
      · exact pending_untaken pending taken
      · obtain ⟨rfl,-⟩ | oldOlder := inserted_row before
        · exact Nat.lt_asymm less (orderly.below newer later oldNewer)
        · exact orderly.behind newer later oldNewer taken older earlier oldOlder less shared waits
    · obtain ⟨rfl,rfl⟩ | old := inserted_row there
      · rw [show ({item with createdAt:=g.now} : SyncItem).status = .pending from pending] at completed
        cases completed
      · exact orderly.completed other stored old completed
  | saves events silent stored same move => exact saves_orderly orderly silent stored same move
  | accepts mine stored same was unsent last =>
    rename_i id row item
    have acc := note_accepted (g:=g) id item
    refine ⟨orderly.ascending,orderly.below,fun other sent member => ?_,?_,orderly.behind,fun other stored there completed => ?_⟩
    · rw [acc] at member
      obtain old | new := List.mem_append.mp member
      · exact orderly.stored other sent old
      · rw [List.mem_singleton] at new
        cases new
        exact ⟨row,stored,same,.inl was⟩
    · rw [acc]
      refine List.pairwise_append.mpr ⟨orderly.sorted,List.pairwise_singleton _ _,fun old member new single shared => ?_⟩
      rw [List.mem_singleton] at single
      subst single
      obtain ⟨other,here,alike,taken⟩ := orderly.stored old.1 old.2 member
      by_contra late
      obtain before | equal := Nat.lt_or_eq_of_le (Nat.le_of_not_lt late)
      · exact last old.1 other here before (alike.target.trans (shared.trans same.target.symm)) taken
      · exact unsent (List.mem_map.mpr ⟨old,member,equal.symm⟩)
    · rw [Board.has,acc,List.map_append]
      exact List.mem_append_left _ (orderly.completed other stored there completed)

end Rows

-- What a request relies on where it stands: one that works on a row holds the lock.
def Stands (g : Board) (id : Nat) (item : SyncItem) (stage : Stage) : Prop :=
  ∃ row,g.items.row id = some row ∧ Same row item ∧ match stage with
    | .starting => row.status = .pending
    | .loading | .calling => row.status = .processing ∧ ¬ g.has id ∧ NoNewer g id row.target
    | .abandoning | .failing => row.status = .processing ∧ ¬ g.has id ∧ NoNewer g id row.target ∧ ¬ Taken item
    | .completing => row.status = .processing ∧ g.has id ∧ item.status = .completed
    | .crediting | .recording | .logging => True
def At (who : Nat) (g : Board) : Runner → Prop
  | .inserting item => item.status = .pending
  | .resetting rows _ => ∀ entry ∈ rows,∃ row,g.items.row entry.1 = some row ∧ Same row entry.2
  | .picking _ | .unlocking _ => g.lock = some who
  | .working _ id item stage => g.lock = some who ∧ Stands g id item stage
  | _ => True

section Others
variable {g g' : Board} {who other : Nat}

theorem effect_same (orderly : Orderly g) (effect : Effect who g g') {id : Nat} {item : SyncItem}
    (stands : ∃ row,g.items.row id = some row ∧ Same row item) : ∃ row,g'.items.row id = some row ∧ Same row item := by
  obtain ⟨row,here,same⟩ := stands
  cases effect with
  | keeps => exact ⟨row,here,same⟩
  | locks _ => exact ⟨row,here,same⟩
  | inserts _ =>
    have old : g.nextItemId ≠ id := fun next => Nat.lt_irrefl _ (next ▸ orderly.below id row here)
    refine ⟨row,?_,same⟩
    rw [insert_row,if_neg old]
    exact here
  | saves events silent stored alike move =>
    rename_i key old saved
    by_cases mine : key = id
    · subst mine
      cases stored.symm.trans here
      exact ⟨saved,save_self stored,alike.target.symm.trans same.target,alike.sent.symm.trans same.sent⟩
    · refine ⟨row,?_,same⟩
      change (g.save key saved).items.row id = some row
      rw [save_row,if_neg mine]
      exact here
  | accepts _ _ _ _ _ _ => exact ⟨row,here,same⟩
-- While one request holds the lock, the others leave its row alone.
theorem effect_held (orderly : Orderly g) (effect : Effect who g g') (apart : other ≠ who) (held : g.lock = some other) :
    g'.lock = some other ∧ (∀ id,g'.has id ↔ g.has id) ∧ (∀ id target,NoNewer g id target → NoNewer g' id target) ∧
    ∀ id row,g.items.row id = some row → row.status = .pending ∨ row.status = .processing → g'.items.row id = some row := by
  have notMine : g.lock ≠ some who := fun mine => apart (Option.some_inj.mp (held.symm.trans mine))
  cases effect with
  | keeps => exact ⟨held,fun _ => Iff.rfl,fun _ _ last => last,fun _ _ here _ => here⟩
  | locks free => cases held.symm.trans free
  | inserts pending =>
    refine ⟨held,fun _ => Iff.rfl,fun id target last newer row there less shared taken => ?_,fun id row here _ => ?_⟩
    · obtain ⟨rfl,rfl⟩ | old := inserted_row there
      · exact pending_untaken pending taken
      · exact last newer row old less shared taken
    · have old : g.nextItemId ≠ id := fun next => Nat.lt_irrefl _ (next ▸ orderly.below id row here)
      rw [insert_row,if_neg old]
      exact here
  | saves events silent stored same move =>
    rename_i key old saved
    cases move with
    | begins mine _ _ _ => exact absurd mine notMine
    | ends mine _ _ _ _ => exact absurd mine notMine
    | completes mine _ _ _ => exact absurd mine notMine
    | resets was becomes _ =>
      have acc := silent_accepted (g:=g) silent key saved
      refine ⟨held,fun id => by rw [Board.has,acc]; exact Iff.rfl,fun id target last newer row there less shared taken => ?_,fun id row here undone => ?_⟩
      · obtain ⟨rfl,rfl⟩ | ⟨-,before⟩ := saved_row stored there
        · exact pending_untaken becomes taken
        · exact last newer row before less shared taken
      · have elsewhere : key ≠ id := by
          rintro rfl
          cases stored.symm.trans here
          rcases was with was | was <;> rw [was] at undone <;> simp at undone
        change (g.save key saved).items.row id = some row
        rw [save_row,if_neg elsewhere]
        exact here
  | accepts mine _ _ _ _ _ => exact absurd mine notMine
theorem stands_held (orderly : Orderly g) (effect : Effect who g g') (apart : other ≠ who) (held : g.lock = some other) {id : Nat} {item : SyncItem}
    {stage : Stage} (stands : Stands g id item stage) : Stands g' id item stage := by
  obtain ⟨-,has,last,rows⟩ := effect_held orderly effect apart held
  obtain ⟨row,here,same,rest⟩ := stands
  cases stage with
  | starting => exact ⟨row,rows id row here (.inl rest),same,rest⟩
  | loading | calling =>
    obtain ⟨was,unsent,newest⟩ := rest
    exact ⟨row,rows id row here (.inr was),same,was,fun sent => unsent ((has id).mp sent),last id _ newest⟩
  | abandoning | failing =>
    obtain ⟨was,unsent,newest,undone⟩ := rest
    exact ⟨row,rows id row here (.inr was),same,was,fun sent => unsent ((has id).mp sent),last id _ newest,undone⟩
  | completing =>
    obtain ⟨was,sent,done⟩ := rest
    exact ⟨row,rows id row here (.inr was),same,was,(has id).mpr sent,done⟩
  | crediting | recording | logging =>
    obtain ⟨row,here,same⟩ := effect_same orderly effect ⟨row,here,same⟩
    exact ⟨row,here,same,trivial⟩
theorem at_others (orderly : Orderly g) (effect : Effect who g g') (apart : other ≠ who) {idle : Runner} (stands : At other g idle) :
    At other g' idle := by
  cases idle with
  | inserting item => exact stands
  | resetting rows round => exact fun entry member => effect_same orderly effect (stands entry member)
  | picking round => exact (effect_held orderly effect apart stands).1
  | unlocking round => exact (effect_held orderly effect apart stands).1
  | working round id item stage =>
    exact ⟨(effect_held orderly effect apart stands.1).1,stands_held orderly effect apart stands.1 stands.2⟩
  | _ => trivial

theorem unlock_other (held : g.lock = some other) (apart : other ≠ who) : g.unlock who = g := by
  unfold Board.unlock
  rw [if_neg (fun mine => apart (Option.some_inj.mp (held.symm.trans mine)))]
theorem unlock_orderly (orderly : Orderly g) (who : Nat) : Orderly (g.unlock who) := by
  unfold Board.unlock
  split
  · exact ⟨orderly.ascending,orderly.below,orderly.stored,orderly.sorted,orderly.behind,orderly.completed⟩
  · exact orderly
theorem at_unlock (apart : other ≠ who) {idle : Runner} (stands : At other g idle) : At other (g.unlock who) idle := by
  cases idle with
  | inserting item => exact stands
  | resetting rows round => intro entry member; rw [(unlock_items g who).1]; exact stands entry member
  | picking round => exact (unlock_other stands apart).symm ▸ stands
  | unlocking round => exact (unlock_other stands apart).symm ▸ stands
  | working round id item stage => exact (unlock_other stands.1 apart).symm ▸ stands
  | _ => trivial

end Others

-- An item is taken up when nothing older of its order is pending. By hand an item is put back when it
-- is given up still and nothing newer of its order is processing or completed. And no request that
-- was accepted is taken for a failed one.
def Runner.InTurn (g : Board) (fate : Fate) : Runner → Prop
  | .resetting ((id,row) :: _) _ => fate.writes = true → (g.items.row id).any (gaveUp none) = true ∧ NoNewer g id row.target
  | .working _ id item stage => match stage with
    | .starting => fate.writes = true → NoOlder g id item.target
    | .calling => fate.writes = true → fate.throws = false
    | .completing | .crediting | .recording => fate.throws = false
    | .loading | .abandoning | .failing | .logging => True
  | _ => True
def InTurn (m : Machine Board Runner) : SyncTurn → Prop
  | .step who fate => ∀ runner ∈ m.workers[who]?,runner.InTurn m.shared fate
  | .arrive _ | .world _ => True

instance (g : Board) (id : Nat) (target : Nat × String) : Decidable (NoOlder g id target) :=
  inferInstanceAs (Decidable (∀ older row,g.items.row older = some row → older < id → row.target = target → row.status ≠ .pending))
instance (row : SyncItem) : Decidable (Taken row) := inferInstanceAs (Decidable (_ ∨ _))
instance (g : Board) (id : Nat) (target : Nat × String) : Decidable (NoNewer g id target) :=
  inferInstanceAs (Decidable (∀ newer row,g.items.row newer = some row → id < newer → row.target = target → ¬ Taken row))
instance (g : Board) (fate : Fate) : (runner : Runner) → Decidable (runner.InTurn g fate)
  | .resetting ((id,row) :: _) _ =>
    inferInstanceAs (Decidable (fate.writes = true → (g.items.row id).any (gaveUp none) = true ∧ NoNewer g id row.target))
  | .working _ id item .starting => inferInstanceAs (Decidable (fate.writes = true → NoOlder g id item.target))
  | .working _ _ _ .calling => inferInstanceAs (Decidable (fate.writes = true → fate.throws = false))
  | .working _ _ _ .completing | .working _ _ _ .crediting | .working _ _ _ .recording =>
    inferInstanceAs (Decidable (fate.throws = false))
  | .working _ _ _ .loading | .working _ _ _ .abandoning | .working _ _ _ .failing | .working _ _ _ .logging => .isTrue trivial
  | .resetting [] _ | .enqueueing _ | .inserting _ | .finding _ _ | .findingAll _ | .locking _ | .picking _ | .unlocking _ | .done _ | .busy
  | .refused _ | .failed | .dead => .isTrue trivial
instance (m : Machine Board Runner) : (turn : SyncTurn) → Decidable (InTurn m turn)
  | .step who fate => inferInstanceAs (Decidable (∀ runner ∈ m.workers[who]?,runner.InTurn m.shared fate))
  | .arrive _ | .world _ => .isTrue trivial

end Elchi.Syncing
