import Mathlib.Logic.Relation
import Mathlib.Logic.Hydra
import Mathlib.Order.WellFoundedSet
import Mathlib.Tactic.Abel
namespace Elchi.ParentTrees
variable {α : Type}

-- A set of nodes in which each names its parent, or none.
def Up (parent : α → Option α) (a b : α) : Prop := parent a = some b
def Acyclic (parent : α → Option α) : Prop := ∀ a,¬Relation.TransGen (Up parent) a a
-- `a` is `b` or one of its descendants.
def Below (parent : α → Option α) (a b : α) : Prop := Relation.ReflTransGen (Up parent) a b

section Moves
variable {parent moved : α → Option α} {a : α}

-- A chain that ends where it first meets the moved node does not use the moved edge.
theorem below_moved (rest : ∀ x,x ≠ a → moved x = parent x) (below : Below parent x a) : Below moved x a := by
  unfold Below at below ⊢
  induction below using Relation.ReflTransGen.head_induction_on with
  | refl => exact .refl
  | head first _ ih =>
    rename_i x _ _
    by_cases same : x = a
    · subst same
      exact .refl
    · exact .head ((rest x same).trans first) ih
-- A node on the way up from a cycle is on a cycle itself: the parent is unique.
theorem cycle_up (cycle : Relation.TransGen (Up parent) x x) (below : Below parent x a) : Relation.TransGen (Up parent) a a := by
  unfold Below at below
  induction below using Relation.ReflTransGen.head_induction_on with
  | refl => exact cycle
  | head first _ ih =>
    rename_i x z _
    obtain ⟨y,step,back⟩ := Relation.TransGen.head'_iff.mp cycle
    cases Option.some.inj (step.symm.trans first)
    exact ih (.tail' back step)
theorem cycle_apart (rest : ∀ x,x ≠ a → moved x = parent x) (path : Relation.TransGen (Up moved) x y) (apart : ¬Below moved x a) :
    Relation.TransGen (Up parent) x y := by
  induction path using Relation.TransGen.head_induction_on with
  | single step =>
    rename_i x
    have different : x ≠ a := fun same => apart (same ▸ .refl)
    exact .single ((rest x different).symm.trans step)
  | head step _ ih =>
    rename_i x z _
    have different : x ≠ a := fun same => apart (same ▸ .refl)
    exact .head ((rest x different).symm.trans step) (ih fun below => apart (.head step below))

-- Giving one node another parent makes no cycle exactly when that parent is not below it.
theorem acyclic_moved (acyclic : Acyclic parent) (rest : ∀ x,x ≠ a → moved x = parent x) :
    Acyclic moved ↔ ∀ p,moved a = some p → ¬Below parent p a := by
  constructor
  · intro free p edge below
    exact free a (.head' edge (below_moved rest below))
  · intro clear x cycle
    by_cases meets : Below moved x a
    · obtain ⟨p,edge,back⟩ := Relation.TransGen.head'_iff.mp (cycle_up cycle meets)
      exact clear p edge (below_moved (fun y different => (rest y different).symm) back)
    · exact acyclic x (cycle_apart rest cycle meets)

end Moves

section Finite
variable {parent : α → Option α}

theorem acyclic_ranked (rank : α → Nat) (lower : ∀ a b,parent a = some b → rank b < rank a) : Acyclic parent := by
  have down : ∀ a b,Relation.TransGen (Up parent) a b → rank b < rank a := by
    intro a b path
    induction path with
    | single edge => exact lower _ _ edge
    | tail _ edge ih => exact (lower _ _ edge).trans ih
  exact fun a cycle => (down a a cycle).false

-- An acyclic relation that only leaves finitely many nodes is well-founded.
theorem finite_founded {below : α → α → Prop} (acyclic : ∀ a,¬Relation.TransGen below a a) (nodes : List α)
    (inside : ∀ a b,below a b → a ∈ nodes) : WellFounded below := by
  let descends : α → α → Prop := Relation.TransGen below
  have irreflexive : Std.Irrefl descends := ⟨acyclic⟩
  have transitive : IsTrans α descends := ⟨fun _ _ _ => Relation.TransGen.trans⟩
  have order : IsStrictOrder α descends := {}
  have finite : {a | a ∈ nodes}.WellFoundedOn descends := (List.finite_toSet nodes).wellFoundedOn
  have founded := Set.wellFoundedOn_iff.mp finite
  have known : ∀ a ∈ nodes,Acc below a := by
    intro a
    induction a using founded.induction with
    | _ a ih =>
      intro member
      exact ⟨a,fun other edge => ih other ⟨.single edge,inside other a edge,member⟩ (inside other a edge)⟩
  exact ⟨fun a => ⟨a,fun other edge => known other (inside other a edge)⟩⟩
-- Among finitely many nodes a walk down the tree ends, whichever children it takes, and so does
-- the walk up.
theorem downwards (acyclic : Acyclic parent) (nodes : List α) (inside : ∀ a b,parent a = some b → a ∈ nodes) :
    WellFounded fun child above => parent child = some above :=
  finite_founded acyclic nodes inside
theorem upwards (acyclic : Acyclic parent) (nodes : List α) (inside : ∀ a b,parent a = some b → b ∈ nodes) :
    WellFounded fun above child => parent child = some above := by
  refine finite_founded (fun a cycle => acyclic a ?_) nodes fun a b edge => inside b a edge
  exact Relation.transGen_swap.mp cycle

end Finite

section Searches
variable {below : α → α → Prop} {children : α → List α}

-- What holds of the empty queue, and of a queue when it holds of every one in which the front has
-- been replaced by nodes below it, holds of every queue.
theorem queue_induction (founded : WellFounded below) {P : List α → Prop} (empty : P [])
    (next : ∀ a rest,(∀ more : List α,(∀ b ∈ more,below b a) → P (rest ++ more)) → P (a :: rest)) : ∀ queue,P queue := by
  suffices all : ∀ (nodes : Multiset α) (queue : List α),(queue : Multiset α) = nodes → P queue from fun queue => all queue queue rfl
  intro nodes
  induction nodes using founded.cutExpand.induction with
  | _ nodes ih =>
    rintro queue rfl
    cases queue with
    | nil => exact empty
    | cons a rest =>
      refine next a rest fun more lower => ih _ ⟨more,a,by simpa using lower,?_⟩ (rest ++ more) rfl
      rw [←Multiset.coe_add,←Multiset.cons_coe,←Multiset.singleton_add]
      abel

-- A recursive query: each round looks up the children of the rows the round before has found.
def descend (children : α → List α) : Nat → List α → Option (List α)
  | _,[] => some []
  | 0,_ :: _ => none
  | rounds+1,a :: rest => (descend children rounds ((a :: rest).flatMap children)).map (a :: rest ++ ·)
-- A search by a queue.
def sweep (children : α → List α) : Nat → List α → Option (List α)
  | _,[] => some []
  | 0,_ :: _ => none
  | steps+1,a :: rest => (sweep children steps (rest ++ children a)).map (children a ++ ·)

theorem descend_empty (rounds : Nat) : descend children rounds [] = some [] := by cases rounds <;> rfl
theorem descend_append {rounds more : Nat} {left right : List α} (first : (descend children rounds left).isSome)
    (second : (descend children more right).isSome) : (descend children (max rounds more) (left ++ right)).isSome := by
  induction rounds generalizing more left right with
  | zero =>
    cases left with
    | nil => simpa using second
    | cons a rest => cases first
  | succ rounds ih =>
    cases more with
    | zero =>
      cases right with
      | nil => simpa using first
      | cons a rest => cases second
    | succ more =>
      have step : ∀ (n : Nat) (rows : List α),(descend children (n+1) rows).isSome = (descend children n (rows.flatMap children)).isSome := by
        intro n rows
        cases rows with
        | nil => simp [descend_empty]
        | cons a rest => simp [descend]
      rw [step] at first second
      rw [Nat.succ_max_succ,step,List.flatMap_append]
      exact ih first second
theorem descend_ends (founded : WellFounded fun child above => child ∈ children above) (start : List α) :
    ∃ rounds found,descend children rounds start = some found := by
  have node : ∀ a,∃ rounds,(descend children rounds [a]).isSome := by
    intro a
    induction a using founded.induction with
    | _ a ih =>
      have all : ∀ rows : List α,(∀ b ∈ rows,b ∈ children a) → ∃ rounds,(descend children rounds rows).isSome := by
        intro rows inside
        induction rows with
        | nil => exact ⟨0,rfl⟩
        | cons b rest later =>
          obtain ⟨rounds,first⟩ := ih b (inside b List.mem_cons_self)
          obtain ⟨more,second⟩ := later fun other member => inside other (.tail _ member)
          exact ⟨max rounds more,descend_append first second⟩
      obtain ⟨rounds,found⟩ := all (children a) fun _ member => member
      exact ⟨rounds+1,by simpa [descend] using found⟩
  have all : ∃ rounds,(descend children rounds start).isSome := by
    induction start with
    | nil => exact ⟨0,rfl⟩
    | cons a rest later =>
      obtain ⟨rounds,first⟩ := node a
      obtain ⟨more,second⟩ := later
      exact ⟨max rounds more,descend_append first second⟩
  obtain ⟨rounds,found⟩ := all
  exact ⟨rounds,Option.isSome_iff_exists.mp found⟩
theorem sweep_ends (founded : WellFounded fun child above => child ∈ children above) (queue : List α) :
    ∃ steps found,sweep children steps queue = some found := by
  induction queue using queue_induction founded with
  | empty => exact ⟨0,[],rfl⟩
  | next a rest ih =>
    obtain ⟨steps,found,ends⟩ := ih (children a) fun _ member => member
    exact ⟨steps+1,children a ++ found,by rw [sweep,ends]; rfl⟩

end Searches

end Elchi.ParentTrees
