import Mathlib.Data.List.Sort
namespace Elchi.Windows
variable {α : Type} {r : α → α → Prop} [DecidableRel r]

-- What comes first of a stable sort after an insertion depends only on what came first before it.
theorem insert_take (x : α) (l : List α) (n : Nat) : (l.orderedInsert r x).take n = ((l.take n).orderedInsert r x).take n := by
  induction l generalizing n with
  | nil => simp
  | cons y rest ih =>
    cases n with
    | zero => simp
    | succ n =>
      by_cases first : r x y
      · simp only [List.take_succ_cons,List.orderedInsert_cons,if_pos first,List.cons.injEq,true_and]
        cases n with
        | zero => rfl
        | succ n => simp [List.take_take]
      · simp only [List.take_succ_cons,List.orderedInsert_cons,if_neg first]
        rw [ih n]
theorem sort_take {before after : List α} {n : Nat} (same : (before.insertionSort r).take n = (after.insertionSort r).take n) (front : List α) :
    ((front ++ before).insertionSort r).take n = ((front ++ after).insertionSort r).take n := by
  induction front with
  | nil => exact same
  | cons x rest ih =>
    rw [List.cons_append,List.cons_append,List.insertionSort_cons,List.insertionSort_cons,insert_take,ih,←insert_take]

-- Insertions that all go before `rest` leave it where it is.
def insertAll (r : α → α → Prop) [DecidableRel r] (front l : List α) : List α := front.foldr (List.orderedInsert r) l
theorem sort_insertAll (front l : List α) : (front ++ l).insertionSort r = insertAll r front (l.insertionSort r) :=
  List.foldr_append
theorem insert_before {x : α} {l rest : List α} (ahead : ∀ y ∈ rest,r x y) :
    (l ++ rest).orderedInsert r x = l.orderedInsert r x ++ rest := by
  induction l with
  | nil =>
    cases rest with
    | nil => rfl
    | cons y rest => simp [ahead y List.mem_cons_self]
  | cons y tail ih =>
    by_cases first : r x y
    · simp [first]
    · simp [first,ih]
theorem insertAll_before {front l rest : List α} (ahead : ∀ x ∈ front,∀ y ∈ rest,r x y) :
    insertAll r front (l ++ rest) = insertAll r front l ++ rest := by
  induction front with
  | nil => rfl
  | cons x others ih =>
    rw [insertAll,List.foldr_cons,←insertAll,ih fun z inside => ahead z (List.mem_cons_of_mem _ inside)]
    exact insert_before (ahead x List.mem_cons_self)
theorem insertAll_length (front l : List α) : (insertAll r front l).length = front.length + l.length := by
  induction front with
  | nil => simp [insertAll]
  | cons x others ih =>
    rw [insertAll,List.foldr_cons,←insertAll,List.orderedInsert_length,ih,List.length_cons]
    omega

section Sorted
variable [Std.Total r] [IsTrans α r]

-- After `n` elements that come before it, an element is not among the first `n`.
theorem sort_skip {front rest : List α} {z : α} {n : Nat} (long : n ≤ front.length) (ahead : ∀ x ∈ front,r x z) :
    ((front ++ z :: rest).insertionSort r).take n = ((front ++ rest).insertionSort r).take n := by
  have behind : ∀ y ∈ (rest.insertionSort r).dropWhile (fun y => ¬r z y),r z y := by
    intro y inside
    have sorted := (List.pairwise_insertionSort r rest).sublist (List.dropWhile_sublist fun y => decide ¬r z y)
    cases tail : (rest.insertionSort r).dropWhile (fun y => ¬r z y) with
    | nil =>
      rw [tail] at inside
      cases inside
    | cons head others =>
      have first : r z head := by
        have kept := List.head?_dropWhile_not (fun y => decide ¬r z y) (rest.insertionSort r)
        rw [tail] at kept
        simpa using kept
      rw [tail] at inside sorted
      rcases List.mem_cons.mp inside with rfl | later
      · exact first
      · exact IsTrans.trans z head y first ((List.pairwise_cons.mp sorted).1 y later)
  have whole : rest.insertionSort r = (rest.insertionSort r).takeWhile (fun y => ¬r z y) ++ (rest.insertionSort r).dropWhile (fun y => ¬r z y) :=
    (List.takeWhile_append_dropWhile).symm
  have joined := sort_insertAll (r:=r) front (z :: rest)
  have without := sort_insertAll (r:=r) front rest
  rw [List.insertionSort_cons_eq_take_drop,insertAll_before] at joined
  · rw [whole,insertAll_before fun x inside y later => IsTrans.trans x z y (ahead x inside) (behind y later)] at without
    have enough : n ≤ (insertAll r front ((rest.insertionSort r).takeWhile (fun y => ¬r z y))).length := by
      rw [insertAll_length]
      omega
    rw [joined,without,List.take_append_of_le_length enough,List.take_append_of_le_length enough]
  · intro x inside y later
    rcases List.mem_cons.mp later with rfl | later
    · exact ahead x inside
    · exact IsTrans.trans x z y (ahead x inside) (behind y later)

-- Of a sorted list only the first `n` can come among the first `n` of a sort it goes into.
theorem sort_window {leg : List α} (sorted : leg.Pairwise r) (rest : List α) (n : Nat) :
    ((leg ++ rest).insertionSort r).take n = ((leg.take n ++ rest).insertionSort r).take n := by
  by_cases short : leg.length ≤ n
  · rw [List.take_of_length_le short]
  have long : n ≤ (leg.take n).length := by
    rw [List.length_take]
    omega
  have apart : ∀ x ∈ leg.take n,∀ y ∈ leg.drop n,r x y := by
    rw [←List.take_append_drop n leg] at sorted
    exact (List.pairwise_append.mp sorted).2.2
  have skipped : ∀ tail : List α,(∀ x ∈ leg.take n,∀ y ∈ tail,r x y) →
      ((leg.take n ++ (tail ++ rest)).insertionSort r).take n = ((leg.take n ++ rest).insertionSort r).take n := by
    intro tail after
    induction tail with
    | nil => rfl
    | cons z others ih =>
      rw [List.cons_append,sort_skip long fun x inside => after x inside z List.mem_cons_self]
      exact ih fun x inside y later => after x inside y (List.mem_cons_of_mem _ later)
  have all := skipped (leg.drop n) apart
  rwa [←List.append_assoc,List.take_append_drop] at all

-- So the first `n` of everything are those of the first `n` of each part.
theorem merged_windows {legs : List (List α)} (sorted : ∀ leg ∈ legs,leg.Pairwise r) (n : Nat) :
    ((legs.flatMap (·.take n)).insertionSort r).take n = (legs.flatten.insertionSort r).take n := by
  induction legs with
  | nil => rfl
  | cons leg rest ih =>
    rw [List.flatMap_cons,List.flatten_cons,sort_take (ih fun other inside => sorted other (List.mem_cons_of_mem _ inside)),
      ←sort_window (sorted leg List.mem_cons_self)]

end Sorted

-- A page that ends within the first `n` can be cut from them.
def page (l : List α) (number size : Nat) : List α := (l.drop ((number - 1) * size)).take size
theorem page_take {number size n : Nat} (positive : 0 < number) (fits : number * size ≤ n) (l : List α) :
    page (l.take n) number size = page l number size := by
  obtain ⟨before,rfl⟩ : ∃ before,number = before + 1 := ⟨number - 1,by omega⟩
  unfold page
  rw [List.drop_take,List.take_take,Nat.add_sub_cancel]
  rw [Nat.succ_mul] at fits
  rw [Nat.min_eq_left (by omega)]
theorem page_first (l : List α) (size : Nat) : page l 1 size = l.take size := by
  simp [page]
-- One page after the other is the list from its beginning.
theorem pages_take (l : List α) (count size : Nat) : (List.range count).flatMap (fun i => page l (i + 1) size) = l.take (count * size) := by
  induction count with
  | zero => simp
  | succ count ih =>
    rw [List.range_succ,List.flatMap_append,ih,Nat.succ_mul,List.take_add,List.flatMap_singleton,page,Nat.add_sub_cancel]

end Elchi.Windows
