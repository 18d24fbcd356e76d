import Elchi.BranchTrees
namespace Elchi.Branches
open RowLock ParentTrees Interleaving
variable {reader : Users.IdReader} {env : Env}

-- Every row a statement stores fits the table as that statement finds it.
def Steady (env : Env) (m : BranchRun) : BranchTurn → Prop
  | .step who choice => ∀ request ∈ m.workers[who]?,∀ row ∈ written env choice m.shared request,Fits m.shared.branches row.1 row.2
  | _ => True

theorem keep_branches (store : Store) (row : Option (Nat × Branch)) :
    (store.keep row).branches = match row with
      | none => store.branches
      | some (id,branch) => store.branches.put id branch := by
  cases row with
  | none => rfl
  | some row => rfl
theorem written_goes (fails : (choice.goes || inMemory request.stage) = false) : written env choice store request = none := by
  obtain ⟨lost,-⟩ := Bool.or_eq_false_iff.mp fails
  simp [written,lost]
theorem drawn_branches (store : Store) (request : Request) : (store.drawn request).branches = store.branches := by
  unfold Store.drawn
  split
  · rfl
  · rfl
theorem next_branches (who : Nat) (choice : Choice) (store : Store) (request : Request) :
    (next reader env who choice store request).1.branches = (store.keep (written env choice store request)).branches := by
  unfold next
  split
  · rw [keep_branches,keep_branches,drawn_branches]
  · rename_i fails
    rw [written_goes (Bool.eq_false_iff.mpr fails)]
    rfl
theorem written_accepted {id : Nat} (stored : written env choice store request = some (id,row)) : refused env store.branches id row = false := by
  have facts := (Option.filter_eq_some_iff.mp stored).2
  simpa using (Bool.and_eq_true_iff.mp facts).2

-- One turn keeps the tree exactly when it is steady.
theorem turn_exact {m : BranchRun} (tree : Hierarchy m.shared.branches) (turn : BranchTurn) :
    Hierarchy ((service reader env).advance m turn).shared.branches ↔ Steady env m turn := by
  cases turn with
  | arrive call => exact iff_of_true tree trivial
  | world event => exact iff_of_true tree trivial
  | step who choice =>
    cases here : m.workers[who]? with
    | none =>
      rw [idle_step here]
      exact iff_of_true tree fun request member => by rw [here] at member; cases member
    | some request =>
      have only : Steady env m (.step who choice) ↔ ∀ row ∈ written env choice m.shared request,Fits m.shared.branches row.1 row.2 := by
        simp only [Steady,here,Option.mem_some_iff]
        exact ⟨fun each => each request rfl,fun fits other same => same ▸ fits⟩
      have after : ((service reader env).advance m (.step who choice)).shared.branches =
          (m.shared.keep (written env choice m.shared request)).branches := by
        rw [shared_step here]
        exact next_branches who choice m.shared request
      rw [only,after,keep_branches]
      cases stored : written env choice m.shared request with
      | none => exact iff_of_true tree fun row member => by cases member
      | some row =>
        rw [put_exact tree (written_accepted stored)]
        simp only [Option.mem_some_iff]
        exact ⟨fun fits other same => same ▸ fits,fun each => each row rfl⟩

-- A rebalance that runs alone.
def alone (reader : Users.IdReader) (env : Env) (state : Store × Request) : Store × Request := next reader env 0 {} state.1 state.2
def Ends (reader : Users.IdReader) (env : Env) (state : Store × Request) : Prop :=
  ∃ steps reply,((alone reader env)^[steps] state).2.stage = .done reply

section Rebalance
variable {parent : Nat → Option Nat}

theorem ends_next {state : Store × Request} (later : Ends reader env (alone reader env state)) : Ends reader env state := by
  obtain ⟨steps,reply,ends⟩ := later
  exact ⟨steps+1,reply,ends⟩

-- A child stored with another level stays where it is in the tree.
def Same (parent : Nat → Option Nat) (store : Store) : Prop := store.branches.Keyed ∧ ∀ id,parentOf store.branches id = parent id
def Under (parent : Nat → Option Nat) (id : Nat) (entry : Nat × Branch) : Prop :=
  parent entry.1 = some id ∧ entry.2.isDeleted = false ∧ entry.2.parentId = some id

theorem keep_same {store : Store} {id : Nat} {entry : Nat × Branch} (same : Same parent store) (under : Under parent id entry) (level : Int) :
    Same parent (store.keep (some (entry.1,{entry.2 with level:=level}))) := by
  refine ⟨put_keyed same.1 _ _,fun other => ?_⟩
  rw [keep_branches]
  by_cases here : other = entry.1
  · subst here
    rw [under.1]
    exact put_edge.mpr under.2
  · exact (put_parentOf here).trans (same.2 other)
theorem children_under {store : Store} (same : Same parent store) (id : Nat) : ∀ entry ∈ childrenOf store.branches id,Under parent id entry := by
  intro entry member
  obtain ⟨live,edge⟩ := (mem_children same.1).mp member
  exact ⟨(same.2 entry.1).symm.trans (parentOf_some.mpr ⟨entry.2,live,edge⟩),live.2,edge⟩

-- The children in hand are stored one by one and queued.
theorem visits_end {id : Nat} {level : Int} {children : Table Branch} {queue : List (Nat × Int)} {store : Store} {request : Request}
    (same : Same parent store) (under : ∀ entry ∈ children,Under parent id entry)
    (later : ∀ (store : Store) (request : Request),Same parent store →
      Ends reader env (store,{request with stage:=.rebalance (queue ++ children.map fun entry => (entry.1,level+1)) level []})) :
    Ends reader env (store,{request with stage:=.rebalance queue level children}) := by
  induction children generalizing queue store with
  | nil => simpa using later store request same
  | cons entry rest ih =>
    obtain ⟨child,branch⟩ := entry
    have here : Under parent id (child,branch) := under _ List.mem_cons_self
    have follow : ∀ store : Store,Same parent store →
        Ends reader env (store,{request with stage:=.rebalance (queue ++ [(child,level+1)]) level rest}) := fun store same =>
      ih same (fun other member => under other (.tail _ member)) fun store request same => by
        simpa using later store request same
    apply ends_next
    by_cases right : branch.level = level+1
    · simpa [alone,next,answered,written,inMemory,right,Store.drawn,Store.keep] using follow store same
    · cases refusal : refused env store.branches child {branch with level:=level+1} with
      | true => exact ⟨0,.error Users.internal,by simp [alone,next,answered,right,refusal,Request.ends]⟩
      | false =>
        have stored := follow _ (keep_same same here (level+1))
        simpa [alone,next,answered,written,right,refusal,Store.drawn,Option.filter_some] using stored

theorem rebalance_ends (founded : WellFounded fun child above => parent child = some above) (queue : List (Nat × Int)) :
    ∀ (store : Store) (level : Int) (request : Request),Same parent store →
      Ends reader env (store,{request with stage:=.rebalance queue level []}) := by
  have pairs : WellFounded fun (child above : Nat × Int) => parent child.1 = some above.1 := InvImage.wf Prod.fst founded
  induction queue using queue_induction pairs with
  | empty =>
    intro store level request _
    exact ends_next ⟨0,.ok "Branch updated",by simp [alone,next,answered,inMemory,Request.ends]⟩
  | next entry rest ih =>
    intro store level request same
    obtain ⟨id,above⟩ := entry
    apply ends_next
    have found : Ends reader env (store,{request with stage:=.rebalance rest above (childrenOf store.branches id)}) :=
      visits_end same (children_under same id) fun store request same => ih _ (fun pair member => by
        obtain ⟨entry,inside,rfl⟩ := List.mem_map.mp member
        exact (children_under ‹_› id entry inside).1) store above request same
    simpa [alone,next,answered,written,Store.drawn,Store.keep] using found

end Rebalance

-- The searches over the tree come to an end.
structure Terminates (reader : Users.IdReader) (env : Env) (store : Store) : Prop where
  query : ∀ roots,∃ rounds found,collectDescendantBranchIds store.branches rounds roots = some found
  descendants : ∀ id,∃ steps found,findBranchDescendants store.branches steps id = some found
  rebalance : ∀ (request : Request) (id : Nat) (level : Int),Ends reader env (store,{request with stage:=.rebalance [(id,level)] 0 []})

theorem founded_tree {branches : Table Branch} (tree : Hierarchy branches) :
    WellFounded fun child above => parentOf branches child = some above := by
  refine downwards tree.acyclic (branches.map (·.1)) fun child above edge => ?_
  obtain ⟨branch,live,-⟩ := parentOf_some.mp edge
  exact List.mem_map.mpr ⟨(child,branch),(row_exact tree.keyed).mpr live.1,rfl⟩
theorem tree_terminates {store : Store} (tree : Hierarchy store.branches) : Terminates reader env store where
  query roots := by
    refine descend_ends ?_ _
    simp only [child_parent tree.keyed]
    exact founded_tree tree
  descendants id := by
    refine sweep_ends (Subrelation.wf ?_ (founded_tree tree)) [id]
    intro child above member
    obtain ⟨entry,inside,rfl⟩ := List.mem_map.mp member
    obtain ⟨sorted,edge⟩ := List.mem_filter.mp inside
    have kept := (List.mem_filter.mp (List.mem_mergeSort.mp sorted)).1
    exact (child_parent tree.keyed).mp (List.mem_map.mpr ⟨entry,List.mem_filter.mpr ⟨kept,edge⟩,rfl⟩)
  rebalance request id level := rebalance_ends (founded_tree tree) [(id,level)] store 0 request ⟨tree.keyed,fun _ => rfl⟩

-- In every state of a run the branches are one tree and the searches end, exactly when every row
-- the run stores fits the table it is stored in.
theorem hierarchy_exact (reader : Users.IdReader) (env : Env) (store : Store) (turns : List BranchTurn) (tree : Hierarchy store.branches) :
    Runs.Meets (service reader env).advance (Steady env) ⟨store,[]⟩ turns ↔
      ∀ front,front <+: turns → Hierarchy ((service reader env).run store front).shared.branches ∧
        Terminates reader env ((service reader env).run store front).shared :=
  Runs.meets_exactly (P:=fun m : BranchRun => Hierarchy m.shared.branches)
    (Q:=fun m : BranchRun => Hierarchy m.shared.branches ∧ Terminates reader env m.shared)
    (fun _ turn tree steady => (turn_exact tree turn).mpr steady) (fun _ tree => ⟨tree,tree_terminates tree⟩)
    (fun _ turn tree unsteady after => unsteady ((turn_exact tree turn).mp after.1)) tree

-- Two moves that cross, and a move under the branch's own id in another spelling.
def plainEnv : Env := ⟨"HQ-TSHKNT","HQ Toshkent",id,id,id⟩
def threeBranches : Store :=
  ⟨[(1,⟨"HQ Toshkent",none,.hq,0,some "HQ-TSHKNT",.active,false⟩),(2,⟨"Samarqand",some 1,.regional,1,some "SAM",.active,false⟩),
    (3,⟨"Urgut",some 1,.pickup,1,some "URG",.active,false⟩)],4⟩
def admin : RequesterContext := ⟨some "1",["admin"]⟩
def move (id parentId : String) : Call := .update id {parentId:=some (some parentId)} (some admin)
def crossed : List BranchTurn := [.arrive (move "2" "3"),.arrive (move "3" "2")] ++ (List.replicate 5 [.step 0 {},.step 1 {}]).flatten
def ownSpelling : List BranchTurn := .arrive (move "2" "02") :: List.replicate 5 (.step 0 {})


theorem three_rows {id : Nat} {branch : Branch} (found : threeBranches.branches.row id = some branch) : (id,branch) ∈ threeBranches.branches :=
  (row_exact (by decide)).mpr found
theorem three_tree : Hierarchy threeBranches.branches where
  keyed := by decide
  parents id branch p live edge := by
    have member := three_rows live.1
    simp only [threeBranches,List.mem_cons,Prod.mk.injEq,List.not_mem_nil,or_false] at member
    rcases member with ⟨rfl,rfl⟩ | ⟨rfl,rfl⟩ | ⟨rfl,rfl⟩
    · cases edge
    · cases edge
      exact ⟨_,rfl,rfl⟩
    · cases edge
      exact ⟨_,rfl,rfl⟩
  acyclic := by
    refine acyclic_ranked (fun id => id) fun id p edge => ?_
    obtain ⟨branch,live,edge⟩ := parentOf_some.mp edge
    have member := three_rows live.1
    simp only [threeBranches,List.mem_cons,Prod.mk.injEq,List.not_mem_nil,or_false] at member
    rcases member with ⟨rfl,rfl⟩ | ⟨rfl,rfl⟩ | ⟨rfl,rfl⟩
    · cases edge
    · cases edge
      decide
    · cases edge
      decide
  levels id branch p parent live edge above := by
    have member := three_rows live.1
    simp only [threeBranches,List.mem_cons,Prod.mk.injEq,List.not_mem_nil,or_false] at member
    rcases member with ⟨rfl,rfl⟩ | ⟨rfl,rfl⟩ | ⟨rfl,rfl⟩
    · cases edge
    · cases edge
      cases above.1
      rfl
    · cases edge
      cases above.1
      rfl
  head := by
    refine ⟨1,_,⟨rfl,rfl⟩,rfl,rfl,fun other row live which => ?_⟩
    have member := three_rows live.1
    simp only [threeBranches,List.mem_cons,Prod.mk.injEq,List.not_mem_nil,or_false] at member
    rcases member with ⟨rfl,rfl⟩ | ⟨rfl,rfl⟩ | ⟨rfl,rfl⟩
    · rfl
    · simp at which
    · simp at which
  codes id branch other row code here there ours theirs := by
    have distinct : (threeBranches.branches.map (·.2.code)).Nodup := by decide
    have same : (id,branch) = (other,row) :=
      List.inj_on_of_nodup_map distinct (three_rows here) (three_rows there) (ours.trans theirs.symm)
    exact congrArg Prod.fst same

def crossedTable : Table Branch :=
  [(1,⟨"HQ Toshkent",none,.hq,0,some "HQ-TSHKNT",.active,false⟩),(2,⟨"Samarqand",some 3,.regional,2,some "SAM",.active,false⟩),
    (3,⟨"Urgut",some 2,.pickup,2,some "URG",.active,false⟩)]
theorem crossed_endless (rounds : Nat) : collectDescendantBranchIds crossedTable rounds [2] = none := by
  let children : Nat → List Nat := fun id => (childrenOf crossedTable id).map (·.1)
  have both : descend children rounds [2] = none ∧ descend children rounds [3] = none := by
    induction rounds with
    | zero => exact ⟨rfl,rfl⟩
    | succ rounds ih =>
      have two : children 2 = [3] := by decide
      have three : children 3 = [2] := by decide
      simp [descend,two,three,ih.1,ih.2]
  exact both.1

theorem hierarchy_exact_three :
    Hierarchy threeBranches.branches ∧
    (Runs.Meets (service Users.decimalReader plainEnv).advance (Steady plainEnv) ⟨threeBranches,[]⟩ crossed ↔
      ∀ front,front <+: crossed → Hierarchy ((service Users.decimalReader plainEnv).run threeBranches front).shared.branches ∧
        Terminates Users.decimalReader plainEnv ((service Users.decimalReader plainEnv).run threeBranches front).shared) :=
  ⟨three_tree,hierarchy_exact _ _ _ _ three_tree⟩
theorem crossed_moves_cycle :
    Hierarchy threeBranches.branches ∧
    (¬Hierarchy ((service Users.decimalReader plainEnv).run threeBranches crossed).shared.branches ∧
      ∀ rounds,collectDescendantBranchIds ((service Users.decimalReader plainEnv).run threeBranches crossed).shared.branches rounds [2] = none) ∧
    ¬Hierarchy ((service Users.decimalReader plainEnv).run threeBranches ownSpelling).shared.branches := by
  have crossing : ((service Users.decimalReader plainEnv).run threeBranches crossed).shared.branches = crossedTable := by decide
  have own : parentOf ((service Users.decimalReader plainEnv).run threeBranches ownSpelling).shared.branches 2 = some 2 := by decide
  refine ⟨three_tree,⟨fun tree => ?_,fun rounds => ?_⟩,fun tree => ?_⟩
  · rw [crossing] at tree
    have up : Up (parentOf crossedTable) 2 3 := by rfl
    have back : Up (parentOf crossedTable) 3 2 := by rfl
    exact tree.acyclic 2 (.head up (.single back))
  · rw [crossing]
    exact crossed_endless rounds
  · exact tree.acyclic 2 (.single own)

end Elchi.Branches
