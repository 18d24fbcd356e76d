import Elchi.LockedRuns
import Elchi.Settlement
namespace Elchi.Settlement
open RowLock Orders

-- What the order service commits to the settlement rows: an advance stamps the rows it names,
-- a rollback writes orders and resets one settlement row.
inductive Committed : Note → List (Write Record) → Journal OrderEvent → Prop where
  | advanced {data : Advance} {settled : List (Nat × Int)} (actor : Nat) (distinct : (settled.map (·.1)).Nodup)
      (allocated : result.allocated = (settled.map (·.2)).sum)
      (stamped : writes = (settled.map (·.1)).map fun key => .update key (advanceRow data actor)) :
      Committed (.advanced data settled result) writes []
  | rolledBack {id : Nat} {saves : List (Write OrderRow)} (updates : ∀ key row,.insert key row ∉ saves)
      (live : ∀ row,guarded = some row → row.isDeleted = false) (unsettled : isSettledToHq guarded = false) :
      Committed (.rolledBack id guarded) (saves.map onOrders ++ [.update (settlementKey id) (onSettlement resetSettlement)]) entries

def Note.of : Note → Call → Prop
  | .advanced data _ _,.advance asked => data = asked
  | .rolledBack id _,.rollback _ _ order _ _ => id = order
  | _,_ => False
def Makes (call : Call) : Guarantee Record OrderEvent Note := fun _ _ note writes entries => note.of call ∧ Committed note writes entries
def AnyAnswer : Reply Note (Except RpcError Answer) := fun _ _ => True

section Requests
variable {G : Guarantee Record OrderEvent Note} {held : List (Held Record OrderEvent)} {notes : List Note}

theorem lockRows_safe {keys : List Nat} {next : Request} (locked : ∀ held,Safe Anything G AnyAnswer next held notes) :
    Safe Anything G AnyAnswer (lockRows keys next) held notes := by
  induction keys generalizing held with
  | nil => exact locked held
  | cons key rest ih => exact ⟨ih,fun _ _ _ _ _ _ => ih⟩

theorem findOrder_safe {id : Nat} {next : OrderRow → Request} (found : ∀ row,Safe Anything G AnyAnswer (next row) held notes) :
    Safe Anything G AnyAnswer (findOrder id next) held notes := by
  intro table _ _
  dsimp only
  split
  · exact found _
  · trivial

theorem lockOrder_safe {id : Nat} {status : OrderStatus} {next : Request} (locked : ∀ held,Safe Anything G AnyAnswer next held notes) :
    Safe Anything G AnyAnswer (lockOrder id status next) held notes := by
  refine ⟨trivial,?_⟩
  intro key row events _ _ _
  dsimp only
  split
  · split
    · exact locked _
    · trivial
  · trivial

end Requests

theorem sorted_keys {rows : Table Record} (keyed : rows.Keyed) : ((byCreation rows).map (·.1)).Nodup :=
  ((List.mergeSort_perm rows older).map _).nodup_iff.mpr keyed

theorem select_keyed {V : Type} {table : Table V} (keyed : table.Keyed) (sel : Nat → V → Bool) : (table.select sel).Keyed :=
  keyed.sublist ((List.filter_sublist).map _)

theorem settled_keys {table : Table Record} (keyed : table.Keyed) (level : Level) (participant : Nat) (amount : Int) :
    ((Fifo.fifo (legOf level) amount (byCreation (table.select (candidate level participant)))).map (·.1)).Nodup := by
  have front : Fifo.fifo (legOf level) amount (byCreation (table.select (candidate level participant))) <+:
      byCreation (table.select (candidate level participant)) := Fifo.fifo_front amount _
  exact (sorted_keys (select_keyed keyed _)).sublist (front.sublist.map _)

theorem stamped_rows (data : Advance) (actor : Nat) (rows : Table Record) :
    rows.map (fun entry => Write.update entry.1 (advanceRow data actor)) =
      ((rows.map fun entry => (entry.1,legOf data.level entry)).map (·.1)).map fun key => .update key (advanceRow data actor) := by
  simp [Function.comp_def]

theorem advanceSettlement_safe (data : Advance) :
    Safe Anything (Makes (.advance data)) AnyAnswer (advanceSettlement data) [] [] := by
  unfold advanceSettlement
  split
  · trivial
  rename_i participant _
  split
  · intro table keyed _
    dsimp only
    split
    · split
      · trivial
      · trivial
    · rename_i actor _
      apply lockRows_safe
      intro held
      apply commit_anything
      · intro key value member
        simp at member
      · intro entry member
        cases member
      · have distinct := settled_keys keyed data.level participant data.amount
        refine ⟨rfl,.advanced actor ?_ ?_ (stamped_rows data actor _)⟩
        · simpa [Function.comp_def] using distinct
        · simp [Fifo.total,Function.comp_def]
      · trivial
  · trivial

theorem guarded_live {table : Table Record} {id : Nat} (found : ((table.select fun key record => key == settlementKey id &&
    record.settlement?.any (!·.isDeleted)).head?.bind (·.2.settlement?)) = some row) : row.isDeleted = false := by
  obtain ⟨entry,first,here⟩ := Option.bind_eq_some_iff.mp found
  have selected := (List.mem_filter.mp (List.mem_of_mem_head? first)).2
  simpa [here] using (Bool.and_eq_true_iff.mp selected).2

theorem rollback_safe (lookups : Lookups) (requester : Requester) (id : Nat) (targetStatus requestId : Option String) :
    Safe Anything (Makes (.rollback lookups requester id targetStatus requestId)) AnyAnswer
      (rollbackOrderToWaiting lookups requester id targetStatus requestId) [] [] := by
  unfold rollbackOrderToWaiting
  split
  · trivial
  apply findOrder_safe
  intro row
  split
  · trivial
  intro table _ _
  dsimp only
  split
  · trivial
  rename_i unsettled
  split
  · trivial
  apply lockOrder_safe
  intro held
  apply lockRows_safe
  intro held children _ _
  dsimp only
  split
  · trivial
  apply findOrder_safe
  intro stored
  split
  · trivial
  · rename_i updated _
    apply commit_anything
    · intro key value member
      simp only [List.mem_append,List.mem_map,List.mem_singleton,reduceCtorEq,or_false] at member
      obtain ⟨write,inside,same⟩ := member
      cases write with
      | insert other row => exact absurd inside (rollbackWrites_updates _ _ _ _ _ _ other row)
      | update other save => cases same
    · intro entry member
      obtain ⟨event,-,rfl⟩ := List.mem_map.mp member
      refine ⟨_,List.mem_append_left _ (List.mem_map_of_mem (List.mem_append_right _ (List.mem_singleton.mpr rfl))),rfl⟩
    · exact ⟨rfl,.rolledBack (rollbackWrites_updates _ _ _ _ _ _) (fun _ => guarded_live) (Bool.eq_false_iff.mpr unsettled)⟩
    · trivial

theorem request_safe (call : Call) : Safe Anything (Makes call) AnyAnswer call.request [] [] := by
  cases call with
  | advance data => exact advanceSettlement_safe data
  | rollback lookups requester id targetStatus requestId => exact rollback_safe lookups requester id targetStatus requestId

theorem serve_sound {table : Table Record} (keyed : table.Keyed) (below : ∀ key ∈ table.map (·.1),key < nextId) (calls : List Call)
    (turns : List Turn) : (serve table nextId calls turns).Sound Anything
      (fun who held made note writes entries => ∃ call,calls[who]? = some call ∧ Makes call held made note writes entries)
      (fun _ => AnyAnswer) := by
  apply run_sound
  apply start_sound keyed below
  · intro entry member
    cases member
  · intro key
    cases table.row key with
    | none => rfl
    | some row => trivial
  · intro who prog here
    rw [List.getElem?_map,Option.map_eq_some_iff] at here
    obtain ⟨call,found,rfl⟩ := here
    exact safe_mono (fun h k n w e made => ⟨call,found,made⟩) (fun _ _ answer => answer) (request_safe call)

theorem serve_logged {table : Table Record} (keyed : table.Keyed) (below : ∀ key ∈ table.map (·.1),key < nextId) {calls : List Call}
    {turns : List Turn} {commit : Commit Record OrderEvent Note} (member : commit ∈ (serve table nextId calls turns).log) :
    (∃ call ∈ calls,commit.note.of call) ∧ Committed commit.note commit.writes commit.entries := by
  obtain ⟨⟨_,call,here,same,made⟩,-⟩ := (serve_sound keyed below calls turns).logged commit member
  exact ⟨⟨call,List.mem_of_getElem? here,same⟩,made⟩

theorem serve_replays (table : Table Record) (nextId : Nat) (calls : List Call) (turns : List Turn) :
    Replays table (serve table nextId calls turns).log (serve table nextId calls turns).table := by
  apply run_replays
  rfl

end Elchi.Settlement
