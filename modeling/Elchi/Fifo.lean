import Mathlib.Algebra.Order.BigOperators.Group.List
import Mathlib.Algebra.Order.Ring.Int
import Mathlib.Data.List.Infix
namespace Elchi.Fifo
variable {α : Type}

-- Oldest first, whole items only: what a lump sum settles of a queue. An item that does not
-- fit stops the allocation; one that costs nothing goes through.
def fifo (cost : α → Int) : Int → List α → List α
  | _,[] => []
  | remaining,item :: rest =>
    if cost item > remaining ∧ cost item > 0 then [] else item :: fifo cost (remaining - cost item) rest
def total (cost : α → Int) (items : List α) : Int := (items.map cost).sum
-- One payment; an empty one settles nothing, not even items that cost nothing.
def pay (cost : α → Int) (payment : Int) (queue : List α) : List α := if payment > 0 then fifo cost payment queue else []
-- Payments one after the other, each from what the ones before it left of the queue.
def payInTurn (cost : α → Int) : List Int → List α → List α
  | [],_ => []
  | payment :: rest,queue => pay cost payment queue ++ payInTurn cost rest (queue.drop (pay cost payment queue).length)

-- The items can be divided, in order, into one group for each payment that the payment covers.
def Covers (cost : α → Int) (payment : Int) (group : List α) : Prop := group = [] ∨ 0 < payment ∧ total cost group ≤ payment
def Divides (cost : α → Int) : List Int → List α → Prop
  | [],items => items = []
  | payment :: rest,items => ∃ count,Covers cost payment (items.take count) ∧ Divides cost rest (items.drop count)

-- Nothing is left over that the first open item could be settled with.
def CaughtUp (cost : α → Int) (unspent : Int) (queue : List α) : Prop := ∀ item,queue.head? = some item → unspent < cost item

@[simp] theorem total_nil (cost : α → Int) : total cost [] = 0 := rfl
@[simp] theorem total_cons (cost : α → Int) (item : α) (rest : List α) : total cost (item :: rest) = cost item + total cost rest := by
  simp [total]
@[simp] theorem total_append (cost : α → Int) (left right : List α) : total cost (left ++ right) = total cost left + total cost right := by
  simp [total]

section Queue
variable {cost : α → Int} (nonneg : ∀ item,0 ≤ cost item)
include nonneg

theorem total_nonneg (items : List α) : 0 ≤ total cost items := by
  induction items with
  | nil => simp
  | cons item rest ih =>
    have here := nonneg item
    rw [total_cons]
    omega

omit nonneg in
theorem fifo_front (remaining : Int) (queue : List α) : fifo cost remaining queue <+: queue := by
  induction queue generalizing remaining with
  | nil => exact List.prefix_rfl
  | cons item rest ih =>
    unfold fifo
    split
    · exact List.nil_prefix
    · exact List.cons_prefix_cons.mpr ⟨rfl,ih _⟩

theorem fifo_total {remaining : Int} (positive : 0 ≤ remaining) (queue : List α) : total cost (fifo cost remaining queue) ≤ remaining := by
  induction queue generalizing remaining with
  | nil => exact positive
  | cons item rest ih =>
    have here := nonneg item
    unfold fifo
    split
    · exact positive
    · have fits : cost item ≤ remaining := by omega
      have rest := ih (show 0 ≤ remaining - cost item by omega)
      rw [total_cons]
      omega

-- Every affordable beginning of the queue is settled.
theorem fifo_longest {remaining : Int} {group queue : List α} (front : group <+: queue) (fits : total cost group ≤ remaining) :
    group <+: fifo cost remaining queue := by
  induction queue generalizing remaining group with
  | nil => rw [List.prefix_nil.mp front]; exact List.nil_prefix
  | cons item rest ih =>
    cases group with
    | nil => exact List.nil_prefix
    | cons first others =>
      obtain ⟨rfl,tail⟩ := List.cons_prefix_cons.mp front
      have more := total_nonneg nonneg others
      rw [total_cons] at fits
      unfold fifo
      rw [if_neg (by omega)]
      exact List.cons_prefix_cons.mpr ⟨rfl,ih tail (by omega)⟩

omit nonneg in
theorem pay_front (payment : Int) (queue : List α) : pay cost payment queue <+: queue := by
  unfold pay
  split
  · exact fifo_front _ _
  · exact List.nil_prefix

theorem pay_covers (payment : Int) (queue : List α) : Covers cost payment (pay cost payment queue) := by
  unfold pay Covers
  split
  · rename_i positive
    exact .inr ⟨positive,fifo_total nonneg (Int.le_of_lt positive) queue⟩
  · exact .inl rfl

theorem pay_longest {payment : Int} {group queue : List α} (front : group <+: queue) (covers : Covers cost payment group) :
    group <+: pay cost payment queue := by
  rcases covers with rfl | ⟨positive,fits⟩
  · exact List.nil_prefix
  · rw [pay,if_pos positive]
    exact fifo_longest nonneg front fits

-- A payment is used up exactly when it is the cost of some beginning of the queue.
theorem pay_exact {payment : Int} (positive : 0 < payment) (queue : List α) :
    total cost (pay cost payment queue) = payment ↔ ∃ front,front <+: queue ∧ total cost front = payment := by
  constructor
  · intro used
    exact ⟨_,pay_front payment queue,used⟩
  · rintro ⟨front,inside,sum⟩
    obtain ⟨more,longer⟩ := pay_longest nonneg inside (.inr ⟨positive,Int.le_of_eq sum⟩)
    have extra := total_nonneg nonneg more
    have within : total cost (pay cost payment queue) ≤ payment := by
      rw [pay,if_pos positive]
      exact fifo_total nonneg (Int.le_of_lt positive) queue
    have grown := congrArg (total cost) longer
    rw [total_append] at grown
    omega

omit nonneg in
theorem payInTurn_front (payments : List Int) (queue : List α) : payInTurn cost payments queue <+: queue := by
  induction payments generalizing queue with
  | nil => exact List.nil_prefix
  | cons payment rest ih =>
    have first : pay cost payment queue <+: queue := pay_front payment queue
    obtain ⟨more,tail⟩ := ih (queue.drop (pay cost payment queue).length)
    refine ⟨more,?_⟩
    rw [payInTurn,List.append_assoc,tail]
    exact (List.prefix_iff_eq_append.mp first)

theorem payInTurn_total {payments : List Int} (positive : ∀ payment ∈ payments,0 ≤ payment) (queue : List α) :
    total cost (payInTurn cost payments queue) ≤ payments.sum := by
  induction payments generalizing queue with
  | nil => simp [payInTurn]
  | cons payment rest ih =>
    have tail := ih (fun other member => positive other (List.mem_cons_of_mem _ member)) (queue.drop (pay cost payment queue).length)
    have here := positive payment List.mem_cons_self
    rw [payInTurn,total_append,List.sum_cons]
    rcases pay_covers nonneg payment queue with none | ⟨-,fits⟩
    · rw [none] at tail ⊢
      simp only [List.length_nil] at tail
      simp only [total_nil,List.length_nil]
      omega
    · omega

-- Splitting a payment never settles more.
theorem payInTurn_within {payments : List Int} (positive : ∀ payment ∈ payments,0 ≤ payment) (queue : List α) :
    payInTurn cost payments queue <+: pay cost payments.sum queue := by
  apply pay_longest nonneg (payInTurn_front payments queue)
  by_cases some : 0 < payments.sum
  · exact .inr ⟨some,payInTurn_total nonneg positive queue⟩
  · left
    have zero : ∀ payment ∈ payments,payment = 0 := by
      intro payment member
      have here := positive payment member
      have most := List.single_le_sum positive payment member
      omega
    clear some positive
    induction payments generalizing queue with
    | nil => rfl
    | cons payment rest ih =>
      have none : pay cost payment queue = [] := by
        rw [pay,if_neg (by rw [zero payment List.mem_cons_self]; omega)]
      rw [payInTurn,none,List.nil_append]
      exact ih _ fun other member => zero other (List.mem_cons_of_mem _ member)

theorem payInTurn_divides (payments : List Int) (queue : List α) : Divides cost payments (payInTurn cost payments queue) := by
  induction payments generalizing queue with
  | nil => rfl
  | cons payment rest ih =>
    refine ⟨(pay cost payment queue).length,?_,?_⟩
    · rw [payInTurn,List.take_left]
      exact pay_covers nonneg payment queue
    · rw [payInTurn,List.drop_left]
      exact ih _

theorem covers_drop {payment : Int} {group : List α} (covers : Covers cost payment group) (count : Nat) :
    Covers cost payment (group.drop count) := by
  rcases covers with rfl | ⟨positive,fits⟩
  · exact .inl (by simp)
  · refine .inr ⟨positive,?_⟩
    have all : total cost group = total cost (group.take count) + total cost (group.drop count) := by
      rw [←total_append,List.take_append_drop]
    have first := total_nonneg nonneg (group.take count)
    omega

theorem divides_drop {payments : List Int} {items : List α} (divides : Divides cost payments items) (skipped : Nat) :
    Divides cost payments (items.drop skipped) := by
  induction payments generalizing items skipped with
  | nil =>
    rw [show items = [] from divides]
    exact List.drop_nil
  | cons payment rest ih =>
    obtain ⟨count,covers,tail⟩ := divides
    refine ⟨count - skipped,?_,?_⟩
    · rw [←List.drop_take]
      exact covers_drop nonneg covers skipped
    · have later := ih tail (skipped - count)
      rw [List.drop_drop] at later
      rwa [List.drop_drop,show skipped + (count - skipped) = count + (skipped - count) by omega]

-- No division does better than taking as much as each payment covers.
theorem divides_within {payments : List Int} {items queue : List α} (divides : Divides cost payments items) (front : items <+: queue) :
    items <+: payInTurn cost payments queue := by
  induction payments generalizing items queue with
  | nil =>
    rw [show items = [] from divides]
    exact List.nil_prefix
  | cons payment rest ih =>
    obtain ⟨count,covers,tail⟩ := divides
    have first : items.take count <+: pay cost payment queue := pay_longest nonneg ((List.take_prefix _ _).trans front) covers
    have later : items.drop (pay cost payment queue).length <+: queue.drop (pay cost payment queue).length :=
      front.drop _
    have left : Divides cost rest (items.drop (pay cost payment queue).length) := by
      by_cases long : count ≤ (pay cost payment queue).length
      · have dropped := divides_drop nonneg tail ((pay cost payment queue).length - count)
        rwa [List.drop_drop,show count + ((pay cost payment queue).length - count) = (pay cost payment queue).length by omega] at dropped
      · -- the group is the whole of the items, so nothing is left to divide
        have length := first.length_le
        rw [List.length_take] at length
        have short : items.length ≤ (pay cost payment queue).length := by omega
        rw [List.drop_eq_nil_of_le (by omega : items.length ≤ count)] at tail
        rwa [List.drop_eq_nil_of_le short]
    obtain ⟨more,split⟩ := ih left later
    rw [payInTurn,←split]
    have paid : pay cost payment queue <+: queue := pay_front payment queue
    rcases List.prefix_or_prefix_of_prefix paid front with shorter | longer
    · obtain ⟨others,rfl⟩ := shorter
      rw [List.drop_left,←List.append_assoc]
      exact List.prefix_append _ _
    · exact longer.trans (List.prefix_append _ _)

theorem divides_front {payments : List Int} {items group : List α} (divides : Divides cost payments items) (front : group <+: items) :
    Divides cost payments group := by
  induction payments generalizing items group with
  | nil =>
    rw [show items = [] from divides] at front
    exact List.prefix_nil.mp front
  | cons payment rest ih =>
    obtain ⟨count,covers,tail⟩ := divides
    have first : group.take count <+: items.take count := front.take count
    refine ⟨count,?_,ih tail (front.drop count)⟩
    rcases covers with none | ⟨positive,fits⟩
    · rw [none] at first
      exact .inl (List.prefix_nil.mp first)
    · obtain ⟨more,whole⟩ := first
      have extra := total_nonneg nonneg more
      rw [←whole,total_append] at fits
      exact .inr ⟨positive,by omega⟩

-- Payments in turn settle what their sum does exactly when every beginning of the queue that
-- the sum covers can be divided among them.
theorem payInTurn_exact {payments : List Int} (positive : ∀ payment ∈ payments,0 ≤ payment) (queue : List α) :
    payInTurn cost payments queue = pay cost payments.sum queue ↔
      ∀ group,group <+: queue → Covers cost payments.sum group → Divides cost payments group := by
  constructor
  · intro same group front covers
    have inside := pay_longest nonneg front covers
    rw [←same] at inside
    exact divides_front nonneg (payInTurn_divides nonneg payments queue) inside
  · intro divides
    have within := payInTurn_within nonneg positive queue
    have whole := divides _ (pay_front payments.sum queue) (pay_covers nonneg payments.sum queue)
    exact within.eq_of_length_le (divides_within nonneg whole (pay_front _ _)).length_le

-- And that is when the first open item costs more than what has been paid and not allocated.
theorem caughtUp_exact {payment : Int} (positive : 0 < payment) {settled queue : List α} (front : settled <+: queue)
    (fits : total cost settled ≤ payment) :
    CaughtUp cost (payment - total cost settled) (queue.drop settled.length) ↔ settled = pay cost payment queue := by
  have inside : settled <+: pay cost payment queue := pay_longest nonneg front (.inr ⟨positive,fits⟩)
  have split := List.prefix_iff_eq_append.mp front
  constructor
  · intro caught
    obtain ⟨more,longer⟩ := inside
    cases more with
    | nil => simpa using longer
    | cons item others =>
      have paid : pay cost payment queue <+: queue := pay_front payment queue
      rw [←longer] at paid
      have next : (queue.drop settled.length).head? = some item := by
        obtain ⟨last,whole⟩ := paid
        rw [←whole,List.append_assoc,List.drop_left]
        rfl
      have dear := caught item next
      have limit := fifo_total nonneg (Int.le_of_lt positive) queue
      have rest := total_nonneg nonneg others
      rw [show fifo cost payment queue = settled ++ item :: others by rw [longer,pay,if_pos positive],total_append,total_cons] at limit
      omega
  · intro same item next
    by_contra cheap
    have more : settled ++ [item] <+: queue := by
      obtain ⟨rest,tail⟩ := List.head?_eq_some_iff.mp next
      refine ⟨rest,?_⟩
      rw [List.append_assoc,←split,tail]
      simp
    have longer := pay_longest nonneg more (.inr ⟨positive,by rw [total_append,total_cons,total_nil]; omega⟩)
    rw [←same] at longer
    have length := longer.length_le
    rw [List.length_append,List.length_singleton] at length
    omega

end Queue

end Elchi.Fifo
