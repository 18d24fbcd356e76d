import Mathlib.Data.List.Sort
import Elchi.Branches
namespace Elchi.Branches
open RowLock ParentTrees

def Live (branches : Table Branch) (id : Nat) (branch : Branch) : Prop := branches.row id = some branch ∧ branch.isDeleted = false
def parentOf (branches : Table Branch) (id : Nat) : Option Nat := (branchById branches id).bind (·.parentId)

-- The live branches are one tree under the head office.
structure Hierarchy (branches : Table Branch) : Prop where
  keyed : branches.Keyed
  parents : ∀ id branch p,Live branches id branch → branch.parentId = some p → ∃ parent,Live branches p parent
  acyclic : Acyclic (parentOf branches)
  levels : ∀ id branch p parent,Live branches id branch → branch.parentId = some p → Live branches p parent → branch.level = parent.level+1
  head : ∃ id branch,Live branches id branch ∧ branch.type = .hq ∧ branch.parentId = none ∧
    ∀ other row,Live branches other row → row.type = .hq ∨ row.parentId = none → other = id
  codes : ∀ id branch other row code,branches.row id = some branch → branches.row other = some row →
    branch.code = some code → row.code = some code → id = other

-- What the checks of a request have looked for, asked again of the table a row is stored in: the
-- parent is live, one level up and not below the branch; children find the branch where they
-- know it; nothing else is or was the head office.
structure Fits (branches : Table Branch) (id : Nat) (row : Branch) : Prop where
  parent : row.isDeleted = false → ∀ p,row.parentId = some p →
    ¬Below (parentOf branches) p id ∧ ∃ parent,Live branches p parent ∧ row.level = parent.level+1
  children : childrenOf branches id ≠ [] → row.isDeleted = false ∧ ∀ old ∈ branches.row id,old.level = row.level
  single : row.isDeleted = false → row.type = .hq ∨ row.parentId = none →
    row.type = .hq ∧ row.parentId = none ∧ ∀ other branch,Live branches other branch → branch.type = .hq → other = id
  stays : ∀ old,Live branches id old → old.type = .hq → row.isDeleted = false ∧ row.type = .hq

section Rows
variable {branches : Table Branch} {id : Nat}

theorem branchById_some : branchById branches id = some branch ↔ Live branches id branch := by
  rw [branchById,Option.filter_eq_some_iff,Live]
  simp
theorem live_same (left : Live branches id branch) (right : Live branches id other) : branch = other :=
  Option.some.inj (left.1.symm.trans right.1)
theorem parentOf_some : parentOf branches id = some p ↔ ∃ branch,Live branches id branch ∧ branch.parentId = some p := by
  simp only [parentOf,Option.bind_eq_some_iff,branchById_some]
theorem mem_children (keyed : branches.Keyed) :
    (child,branch) ∈ childrenOf branches id ↔ Live branches child branch ∧ branch.parentId = some id := by
  rw [childrenOf,Table.select,List.mem_filter,row_exact keyed]
  simp [Live,and_assoc]
theorem child_parent (keyed : branches.Keyed) : child ∈ (childrenOf branches id).map (·.1) ↔ parentOf branches child = some id := by
  simp only [List.mem_map,parentOf_some]
  constructor
  · rintro ⟨⟨key,branch⟩,member,rfl⟩
    exact ⟨branch,(mem_children keyed).mp member⟩
  · rintro ⟨branch,facts⟩
    exact ⟨(child,branch),(mem_children keyed).mpr facts,rfl⟩

end Rows

section Storing
variable {branches : Table Branch} {id : Nat} {row : Branch}

theorem put_self : Live (branches.put id row) id branch ↔ branch = row ∧ row.isDeleted = false := by
  rw [Live,row_put,if_pos rfl]
  constructor
  · rintro ⟨same,kept⟩
    cases same
    exact ⟨rfl,kept⟩
  · rintro ⟨rfl,kept⟩
    exact ⟨rfl,kept⟩
theorem put_other (different : other ≠ id) : Live (branches.put id row) other branch ↔ Live branches other branch := by
  rw [Live,Live,row_put,if_neg different.symm]
theorem put_parentOf (different : other ≠ id) : parentOf (branches.put id row) other = parentOf branches other := by
  unfold parentOf branchById
  rw [row_put,if_neg different.symm]
theorem put_parentOf_self : parentOf (branches.put id row) id = if row.isDeleted then none else row.parentId := by
  unfold parentOf branchById
  rw [row_put,if_pos rfl,Option.filter_some]
  cases row.isDeleted
  · rfl
  · rfl
theorem put_edge : parentOf (branches.put id row) id = some p ↔ row.isDeleted = false ∧ row.parentId = some p := by
  rw [put_parentOf_self]
  cases row.isDeleted
  · simp
  · simp

theorem apart_clear (clear : ¬Below (parentOf branches) p id) : p ≠ id := by
  rintro rfl
  exact clear .refl
theorem child_apart (tree : Hierarchy branches) (live : Live branches child branch) (edge : branch.parentId = some id) : child ≠ id := by
  rintro rfl
  exact tree.acyclic child (.single (parentOf_some.mpr ⟨branch,live,edge⟩))
theorem children_nonempty (tree : Hierarchy branches) (live : Live branches child branch) (edge : branch.parentId = some id) :
    childrenOf branches id ≠ [] := by
  intro none
  have member := (mem_children tree.keyed).mpr ⟨live,edge⟩
  rw [none] at member
  cases member
-- The unique index on the code holds whatever is stored.
theorem codes_put (tree : Hierarchy branches) (accepted : refused env branches id row = false) :
    ∀ a left b right code,(branches.put id row).row a = some left → (branches.put id row).row b = some right →
      left.code = some code → right.code = some code → a = b := by
  have free : ∀ other branch code,other ≠ id → branches.row other = some branch → branch.code = some code → row.code ≠ some code := by
    intro other branch code different stored theirs ours
    have entry := List.any_eq_false.mp accepted (other,branch) ((row_exact tree.keyed).mpr stored)
    simp [different,theirs,ours] at entry
  intro a left b right code first second ours theirs
  rw [row_put] at first second
  split at first
  · rename_i here
    split at second
    · rename_i there
      exact here.symm.trans there
    · rename_i apart
      cases first
      exact absurd ours (free b right code (Ne.symm apart) second theirs)
  · rename_i apart
    split at second
    · cases second
      exact absurd theirs (free a left code (Ne.symm apart) first ours)
    · exact tree.codes a left b right code first second ours theirs

theorem fits_keeps (tree : Hierarchy branches) (accepted : refused env branches id row = false) (fits : Fits branches id row) :
    Hierarchy (branches.put id row) where
  keyed := put_keyed tree.keyed id row
  parents other branch p live edge := by
    by_cases here : other = id
    · subst here
      obtain ⟨rfl,kept⟩ := put_self.mp live
      obtain ⟨clear,parent,known,-⟩ := fits.parent kept p edge
      exact ⟨parent,(put_other (apart_clear clear)).mpr known⟩
    · rw [put_other here] at live
      by_cases above : p = id
      · subst above
        exact ⟨row,put_self.mpr ⟨rfl,(fits.children (children_nonempty tree live edge)).1⟩⟩
      · obtain ⟨parent,known⟩ := tree.parents other branch p live edge
        exact ⟨parent,(put_other above).mpr known⟩
  acyclic := by
    refine (acyclic_moved tree.acyclic fun other different => put_parentOf different).mpr fun p edge => ?_
    obtain ⟨kept,edge⟩ := put_edge.mp edge
    exact (fits.parent kept p edge).1
  levels other branch p parent live edge above := by
    by_cases here : other = id
    · subst here
      obtain ⟨rfl,kept⟩ := put_self.mp live
      obtain ⟨clear,known,found,level⟩ := fits.parent kept p edge
      rw [put_other (apart_clear clear)] at above
      exact live_same found above ▸ level
    · rw [put_other here] at live
      by_cases under : p = id
      · subst under
        obtain ⟨rfl,-⟩ := put_self.mp above
        obtain ⟨old,known⟩ := tree.parents other branch p live edge
        rw [←(fits.children (children_nonempty tree live edge)).2 old known.1]
        exact tree.levels other branch p old live edge known
      · exact tree.levels other branch p parent live edge ((put_other under).mp above)
  head := by
    obtain ⟨top,branch,live,type,root,only⟩ := tree.head
    by_cases here : top = id
    · subst here
      obtain ⟨kept,same⟩ := fits.stays branch live type
      refine ⟨top,row,put_self.mpr ⟨rfl,kept⟩,same,(fits.single kept (.inl same)).2.1,fun other found there which => ?_⟩
      by_cases again : other = top
      · exact again
      · exact only other found ((put_other again).mp there) which
    · refine ⟨top,branch,(put_other here).mpr live,type,root,fun other found there which => ?_⟩
      by_cases again : other = id
      · subst again
        obtain ⟨rfl,kept⟩ := put_self.mp there
        exact absurd ((fits.single kept which).2.2 top branch live type) here
      · exact only other found ((put_other again).mp there) which
  codes := codes_put tree accepted

theorem keeps_fits (tree : Hierarchy branches) (after : Hierarchy (branches.put id row)) : Fits branches id row where
  parent kept p edge := by
    have self : Live (branches.put id row) id row := put_self.mpr ⟨rfl,kept⟩
    have clear : ¬Below (parentOf branches) p id :=
      (acyclic_moved tree.acyclic fun other different => put_parentOf different).mp after.acyclic p (put_edge.mpr ⟨kept,edge⟩)
    obtain ⟨parent,above⟩ := after.parents id row p self edge
    exact ⟨clear,parent,(put_other (apart_clear clear)).mp above,after.levels id row p parent self edge above⟩
  children some := by
    obtain ⟨⟨child,branch⟩,member⟩ := List.exists_mem_of_ne_nil _ some
    obtain ⟨live,edge⟩ := (mem_children tree.keyed).mp member
    have there : Live (branches.put id row) child branch := (put_other (child_apart tree live edge)).mpr live
    obtain ⟨parent,above⟩ := after.parents child branch id there edge
    obtain ⟨rfl,kept⟩ := put_self.mp above
    refine ⟨kept,fun old stored => ?_⟩
    obtain ⟨known,before⟩ := tree.parents child branch id live edge
    cases Option.some.inj (before.1.symm.trans stored)
    have first := tree.levels child branch id _ live edge before
    have second := after.levels child branch id _ there edge above
    omega
  single kept which := by
    obtain ⟨top,branch,live,type,root,only⟩ := after.head
    have self : Live (branches.put id row) id row := put_self.mpr ⟨rfl,kept⟩
    have here : id = top := only id row self which
    subst here
    cases live_same self live
    refine ⟨type,root,fun other found there head => ?_⟩
    by_contra different
    exact different (only other found ((put_other different).mpr there) (.inl head))
  stays old live type := by
    obtain ⟨top,branch,there,head,root,-⟩ := after.head
    by_cases here : top = id
    · subst here
      obtain ⟨rfl,kept⟩ := put_self.mp there
      exact ⟨kept,head⟩
    · obtain ⟨first,_,_,_,_,only⟩ := tree.head
      have same : top = id := (only top branch ((put_other here).mp there) (.inl head)).trans (only id old live (.inl type)).symm
      exact absurd same here

-- One stored row keeps the tree exactly when it fits the table it is stored in.
theorem put_exact (tree : Hierarchy branches) (accepted : refused env branches id row = false) :
    Hierarchy (branches.put id row) ↔ Fits branches id row :=
  ⟨keeps_fits tree,fits_keeps tree accepted⟩

end Storing

-- The walk of ensureNotCyclicParent over one table: the parent it asks about is live and not
-- below the branch exactly when the walk lets the request go on.
section Walk
variable {reader : Users.IdReader} {branches : Table Branch}

def walk (reader : Users.IdReader) (branches : Table Branch) : Nat → Except RpcError Request → Except RpcError Request
  | 0,reply => reply
  | _,.error error => .error error
  | steps+1,.ok request => match request.stage with
    | .climb parentId visited currentId => walk reader branches steps (answerClimb reader branches request parentId visited currentId)
    | _ => .ok request
def Passes (reader : Users.IdReader) (branches : Table Branch) (request : Request) (parentId : String) (reply : Except RpcError Request) : Prop :=
  ∃ steps,walk reader branches steps reply = .ok {request with stage:=.parent parentId}
def Stops (reader : Users.IdReader) (branches : Table Branch) (reply : Except RpcError Request) : Prop :=
  ∃ steps error,walk reader branches steps reply = .error error

theorem find_canonical (id : Nat) :
    findBranch reader branches (toString id) = .ok ((branchById branches id).map fun branch => (id,branch)) := by
  rw [findBranch,reader.canonical]
theorem answer_canonical (request : Request) (parentId : String) (visited : List String) (id : Nat) :
    answerClimb reader branches request parentId visited (toString id) = match branchById branches id with
      | none => .error (notFound "Parent branch not found")
      | some current => match current.parentId with
        | none => .ok {request with stage:=.parent parentId}
        | some next => climbOn request parentId visited (toString next) := by
  rw [answerClimb,find_canonical]
  cases branchById branches id with
  | none => rfl
  | some current => rfl
theorem text_same (reader : Users.IdReader) {a b : Nat} (same : toString a = toString b) : a = b := by
  have read := reader.canonical a
  rw [same,reader.canonical] at read
  exact (Option.some.inj read).symm

theorem founded_up (tree : Hierarchy branches) : WellFounded fun above child => parentOf branches child = some above := by
  refine upwards tree.acyclic (branches.map (·.1)) fun child above edge => ?_
  obtain ⟨branch,live,edge⟩ := parentOf_some.mp edge
  obtain ⟨parent,known⟩ := tree.parents child branch above live edge
  exact List.mem_map.mpr ⟨(above,parent),(row_exact tree.keyed).mpr known.1,rfl⟩
theorem climb_decides (reader : Users.IdReader) (tree : Hierarchy branches) (request : Request) (parentId : String) (p : Nat) :
    ∀ visited : List String,(∀ text ∈ visited,∃ x,text = toString x ∧ Relation.TransGen (Up (parentOf branches)) x p) →
      ((∃ parent,Live branches p parent) ∧ ¬Below (parentOf branches) p request.id →
        Passes reader branches request parentId (climbOn request parentId visited (toString p))) ∧
      (¬((∃ parent,Live branches p parent) ∧ ¬Below (parentOf branches) p request.id) →
        Stops reader branches (climbOn request parentId visited (toString p))) := by
  induction p using (founded_up tree).induction with
  | _ p ih =>
    intro visited behind
    by_cases self : p = request.id
    · exact ⟨fun both => absurd (self ▸ .refl) both.2,fun _ => ⟨0,cyclic,by simp [climbOn,walk,self]⟩⟩
    have apart : toString p ≠ toString request.id := fun same => self (text_same reader same)
    have unseen : visited.contains (toString p) = false := by
      refine Bool.eq_false_iff.mpr fun seen => ?_
      obtain ⟨x,same,path⟩ := behind _ (List.contains_iff_mem.mp seen)
      cases text_same reader same
      exact tree.acyclic p path
    have climbs : climbOn request parentId visited (toString p) =
        .ok {request with stage:=.climb parentId (toString p :: visited) (toString p)} := by
      simp only [climbOn,if_neg apart,unseen,Bool.false_eq_true,if_false]
    cases here : branchById branches p with
    | none =>
      have gone : ¬∃ parent,Live branches p parent := by
        rintro ⟨parent,live⟩
        rw [branchById_some.mpr live] at here
        cases here
      rw [climbs]
      exact ⟨fun both => absurd both.1 gone,fun _ => ⟨1,notFound "Parent branch not found",by simp only [walk,answer_canonical,here]⟩⟩
    | some branch =>
      have live := branchById_some.mp here
      cases above : branch.parentId with
      | none =>
        have top : ¬Below (parentOf branches) p request.id := by
          intro below
          rcases Relation.ReflTransGen.cases_head below with same | ⟨q,edge,-⟩
          · exact self same
          · obtain ⟨other,found,edge⟩ := parentOf_some.mp edge
            cases live_same live found
            rw [above] at edge
            cases edge
        rw [climbs]
        exact ⟨fun _ => ⟨1,by simp only [walk,answer_canonical,here,above]⟩,fun stuck => absurd ⟨⟨branch,live⟩,top⟩ stuck⟩
      | some q =>
        have edge : parentOf branches p = some q := parentOf_some.mpr ⟨branch,live,above⟩
        have known : ∃ parent,Live branches q parent := tree.parents p branch q live above
        have below : Below (parentOf branches) p request.id ↔ Below (parentOf branches) q request.id := by
          constructor
          · intro path
            rcases Relation.ReflTransGen.cases_head path with same | ⟨x,first,rest⟩
            · exact absurd same self
            · cases Option.some.inj (edge.symm.trans first)
              exact rest
          · exact fun path => .head edge path
        have later := ih q edge (toString p :: visited) fun text member => by
          rcases List.mem_cons.mp member with rfl | old
          · exact ⟨p,rfl,.single edge⟩
          · obtain ⟨x,same,path⟩ := behind text old
            exact ⟨x,same,.tail path edge⟩
        have follows : ∀ steps,walk reader branches (steps+1) (climbOn request parentId visited (toString p)) =
            walk reader branches steps (climbOn request parentId (toString p :: visited) (toString q)) := by
          intro steps
          rw [climbs]
          simp only [walk,answer_canonical,here,above]
          rfl
        refine ⟨fun both => ?_,fun stuck => ?_⟩
        · obtain ⟨steps,passes⟩ := later.1 ⟨known,fun path => both.2 (below.mpr path)⟩
          exact ⟨steps+1,(follows steps).trans passes⟩
        · obtain ⟨steps,error,stops⟩ := later.2 fun both => stuck ⟨⟨branch,live⟩,fun path => both.2 (below.mp path)⟩
          exact ⟨steps+1,error,(follows steps).trans stops⟩

end Walk

end Elchi.Branches
