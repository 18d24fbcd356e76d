import Mathlib.Data.List.Induction
import Elchi.ReversalPlaces
namespace Elchi.Orders
open RowLock

-- The legs that charge an extra cost or give one back.
def BalanceLeg.movesExtraCost (leg : BalanceLeg) : Bool :=
  leg.sourceType == .extraCost || leg.sourceType == .correction && (leg.comment == "Qo'shimcha xarajat orqaga qaytarildi" ||
    leg.comment == "Bekor qilingan buyurtmaga yozilgan qo'shimcha xarajat orqaga qaytarildi")
def extraLegs (id : Nat) (commit : OrderCommit) : List BalanceLeg :=
  (legsOf (slice commit.entries id)).filter BalanceLeg.movesExtraCost

def Call.closes (id : Nat) : Call → Bool
  | .sell _ _ order _ _ => order == id
  | .partlySell _ _ order _ _ _ => order == id
  | .cancel _ _ order _ _ => order == id
  | _ => false

-- The charges of the sale or cancellation that a rollback would undo now, and those of earlier
-- ones that no rollback came for (the order was scanned back to WAITING).
structure Charges where
  standing : List BalanceLeg
  left : List BalanceLeg
def Charges.after (id : Nat) (charges : Charges) (commit : OrderCommit) : Charges :=
  if commit.note.call.closes id then ⟨extraLegs id commit,charges.left ++ charges.standing⟩
  else if commit.note.call.rollsBack id then ⟨[],charges.left⟩
  else charges
def chargesOf (id : Nat) (log : List OrderCommit) : Charges := log.foldl (Charges.after id) ⟨[],[]⟩

-- A row written at `time` counts as the one of this sale or cancellation.
def settledNear (order : Order) (time : Nat) : Bool :=
  if isSold order.status then order.soldAt.any fun soldAt => isNearInTime soldAt time
  else [.cancelled,.closed].contains order.status && isNearInTime order.updatedAt time
def ShowsCost (lookups : Lookups) (id : Nat) (order : Order) (userId : Nat) (amount : Int) : Prop :=
  ∃ time,lookups.extraCosts userId id = some ⟨amount,time⟩ ∧ settledNear order time = true
def ShowsNone (lookups : Lookups) (id : Nat) (order : Order) (userId : Nat) : Prop :=
  ∀ row,lookups.extraCosts userId id = some row → settledNear order row.createdAt = false

-- What finance has to answer for a rollback to find the charges that stand: the charge is
-- already booked on the market and on the cashbox this rollback would give it back to, as the
-- latest row of the order there, within five seconds of the sale (of the last update of a
-- cancelled order); and when nothing stands no older row lies that near.
inductive Finds (lookups : Lookups) (id : Nat) (order : Order) (expense : Nat × CashboxType) : List BalanceLeg → Prop where
  | nothing (market : ShowsNone lookups id order order.marketId) (actor : ShowsNone lookups id order expense.1) :
      Finds lookups id order expense []
  | charge {standing : List BalanceLeg} (positive : 0 < amount) (booked : standing.map BalanceLeg.booking =
        [(order.marketId,.forMarket,-amount),(expense.1,expense.2,-amount)])
      (market : ShowsCost lookups id order order.marketId amount) (actor : ShowsCost lookups id order expense.1 amount)
      (cashbox : (lookups.cashboxes expense.1 expense.2).isSome = true) : Finds lookups id order expense standing
  | marketOnly {standing : List BalanceLeg} (positive : 0 < amount) (booked : standing.map BalanceLeg.booking = [(order.marketId,.forMarket,-amount)])
      (market : ShowsCost lookups id order order.marketId amount)
      (actor : ShowsNone lookups id order expense.1 ∨ lookups.cashboxes expense.1 expense.2 = none) :
      Finds lookups id order expense standing

def FindsCharges (id : Nat) (standing : List BalanceLeg) (back : OrderCommit) : Prop :=
  ∀ lookups requester targetStatus requestId loaded courierId,back.note.call = .rollback lookups requester id targetStatus requestId →
    back.note.loaded = some loaded → resolveActorCourierId requester loaded (loaded.postId.bind lookups.posts) = .ok courierId →
    Finds lookups id loaded (actorExpense requester courierId) standing

structure ReversedOnce (id : Nat) (log : List OrderCommit) : Prop where
  even : ∀ userId type,net (log.flatMap (extraLegs id)) userId type =
    net ((chargesOf id log).left ++ (chargesOf id log).standing) userId type
  undone : ∀ before back after,log = before ++ back :: after → back.note.call.rollsBack id = true →
    ∀ userId type,net ((chargesOf id before).standing ++ extraLegs id back) userId type = 0
  once : ∀ before back after,log = before ++ back :: after → back.note.call.rollsBack id = true →
    (chargesOf id before).standing = [] → extraLegs id back = []

theorem standingExtraCost_shown {id : Nat} (shown : ShowsCost lookups id order userId amount) (positive : 0 < amount) :
    standingExtraCost lookups id order userId = amount := by
  obtain ⟨time,answered,near⟩ := shown
  unfold settledNear at near
  simp only [standingExtraCost,answered]
  rw [if_pos ⟨positive,near⟩]

theorem standingExtraCost_none {id : Nat} (shown : ShowsNone lookups id order userId) : standingExtraCost lookups id order userId = 0 := by
  unfold standingExtraCost
  split
  · rfl
  · rename_i row answered
    have far := shown row answered
    unfold settledNear at far
    dsimp only
    rw [far,if_neg (by simp)]

-- Of a rollback's corrections exactly the first ones give an extra cost back.
theorem reversal_extraLegs {id : Nat} :
    ((reversal lookups requester id order target requestId courierId parties).legs.filter BalanceLeg.movesExtraCost).map BalanceLeg.booking =
      posting order.marketId .forMarket (standingExtraCost lookups id order order.marketId) ++
        posting (actorExpense requester courierId).1 (actorExpense requester courierId).2
          (if (lookups.cashboxes (actorExpense requester courierId).1 (actorExpense requester courierId).2).isSome = true then
            standingExtraCost lookups id order (actorExpense requester courierId).1 else 0) := by
  have charged : (reversal lookups requester id order target requestId courierId parties).extra.filter BalanceLeg.movesExtraCost =
      (reversal lookups requester id order target requestId courierId parties).extra := by
    apply List.filter_eq_self.mpr
    intro leg member
    have text := (rollbackExtra_of member).comment
    have source := (rollbackExtra_of member).source
    simp only [saleLeg] at text source
    rw [BalanceLeg.movesExtraCost,text,source]
    split
    · rfl
    · rfl
  have priced : (reversal lookups requester id order target requestId courierId parties).cod.filter BalanceLeg.movesExtraCost = [] := by
    apply List.filter_eq_nil_iff.mpr
    intro leg member
    simp only [reversal] at member
    split at member
    · have text := (codLegs_of member).comment
      have source := (codLegs_of member).source
      simp only [saleLeg] at text source
      have first := rollbackComment_apart (order.comment.getD "") (show "Qo'shimcha xarajat orqaga qaytarildi".toList.head? ≠ some '[' by decide)
      have second := rollbackComment_apart (order.comment.getD "")
        (show "Bekor qilingan buyurtmaga yozilgan qo'shimcha xarajat orqaga qaytarildi".toList.head? ≠ some '[' by decide)
      simp [BalanceLeg.movesExtraCost,source,text,first,second]
    · cases member
  rw [RollbackPlan.legs,numbered_filter (fun _ _ => rfl),List.filter_append,charged,priced,List.append_nil,←expense_posting]
  exact rollbackExtra_booking _ _ _ _ _

theorem extraLegs_rollback {id : Nat} {commit : OrderCommit} (made : Transaction commit.held commit.note commit.writes commit.entries)
    (rolls : commit.note.call.rollsBack id = true) :
    ∃ lookups requester targetStatus requestId loaded courierId,commit.note.call = .rollback lookups requester id targetStatus requestId ∧
      commit.note.loaded = some loaded ∧ resolveActorCourierId requester loaded (loaded.postId.bind lookups.posts) = .ok courierId ∧
      (extraLegs id commit).map BalanceLeg.booking =
        posting loaded.marketId .forMarket (standingExtraCost lookups id loaded loaded.marketId) ++
          posting (actorExpense requester courierId).1 (actorExpense requester courierId).2
            (if (lookups.cashboxes (actorExpense requester courierId).1 (actorExpense requester courierId).2).isSome = true then
              standingExtraCost lookups id loaded (actorExpense requester courierId).1 else 0) := by
  obtain ⟨who,note,held,before,writes,entries⟩ := commit
  dsimp only at made rolls
  cases made with
  | rollback target allowed planned locked unchanged passed merged =>
    cases beq_iff_eq.mp rolls
    obtain ⟨courierId,parties,resolved,-,rfl⟩ := rollbackPlan_parts planned
    refine ⟨_,_,_,_,_,courierId,rfl,rfl,resolved,?_⟩
    rw [extraLegs,slice_own,if_pos rfl,legsOf_append,legsOf_status,List.append_nil,legsOf_reversal]
    exact reversal_extraLegs
  | _ => cases rolls

-- Only the order's own sales, cancellations and rollbacks move its extra cost.
theorem extraLegs_other {id : Nat} {commit : OrderCommit} (made : Transaction commit.held commit.note commit.writes commit.entries)
    (closes : commit.note.call.closes id = false) (rolls : commit.note.call.rollsBack id = false) : extraLegs id commit = [] := by
  obtain ⟨who,note,held,before,writes,entries⟩ := commit
  dsimp only at made closes rolls
  have quiet : slice entries id = [] → extraLegs id ⟨who,note,held,before,writes,entries⟩ = [] := by
    intro empty
    rw [extraLegs,empty]
    rfl
  cases made with
  | sell planned locked waiting passed =>
    apply quiet
    rw [slice_own,if_neg (by simpa [Call.closes] using closes)]
  | partlySell planned locked waiting passed apart childNew =>
    apply quiet
    rw [slice_own,if_neg (by simpa [Call.closes] using closes)]
  | cancel planned locked waiting passed =>
    apply quiet
    rw [slice_own,if_neg (by simpa [Call.closes] using closes)]
  | rollback target allowed planned locked unchanged passed merged =>
    apply quiet
    rw [slice_own,if_neg (by simpa [Call.rollsBack] using rolls)]
  | update passed =>
    rename_i loaded updated order
    rw [extraLegs,slice_own]
    split
    · rw [legsOf_status]
      rfl
    · rfl
  | _ => exact quiet rfl

theorem finds_undoes {id : Nat} {charged : List BalanceLeg} {back : OrderCommit}
    (made : Transaction back.held back.note back.writes back.entries) (rolls : back.note.call.rollsBack id = true)
    (finds : FindsCharges id charged back) : Undoes (extraLegs id back) charged := by
  obtain ⟨lookups,requester,targetStatus,requestId,loaded,courierId,call,read,resolved,legs⟩ := extraLegs_rollback made rolls
  rw [undoes_exact,legs]
  cases finds _ _ _ _ _ _ call read resolved with
  | nothing market actor =>
    rw [standingExtraCost_none market,standingExtraCost_none actor,ite_self]
    rfl
  | charge positive booked market actor cashbox =>
    rw [standingExtraCost_shown market positive,standingExtraCost_shown actor positive,if_pos cashbox,booked,posting,posting,
      if_neg (by omega),if_neg (by omega)]
    simp [opposite]
  | marketOnly positive booked market actor =>
    have quiet : (if (lookups.cashboxes (actorExpense requester courierId).1 (actorExpense requester courierId).2).isSome = true then
        standingExtraCost lookups id loaded (actorExpense requester courierId).1 else 0) = 0 := by
      rcases actor with none | missing
      · rw [standingExtraCost_none none,ite_self]
      · rw [missing]
        rfl
    rw [standingExtraCost_shown market positive,quiet,booked,posting,posting,if_neg (by omega),if_pos rfl]
    simp [opposite]

theorem chargesOf_snoc (id : Nat) (log : List OrderCommit) (commit : OrderCommit) :
    chargesOf id (log ++ [commit]) = (chargesOf id log).after id commit := by
  simp [chargesOf]

-- One commit: what has been moved so far is what stands or was left behind.
theorem after_even {id : Nat} {charges : Charges} {commit : OrderCommit}
    (made : Transaction commit.held commit.note commit.writes commit.entries)
    (finds : commit.note.call.rollsBack id = true → FindsCharges id charges.standing commit) (userId : Nat) (type : CashboxType) :
    net ((charges.after id commit).left ++ (charges.after id commit).standing) userId type =
      net (charges.left ++ charges.standing) userId type + net (extraLegs id commit) userId type := by
  unfold Charges.after
  split
  · rw [net_append,net_append]
  · rename_i closes
    split
    · rename_i rolls
      have even := (finds_undoes made rolls (finds rolls)).2 userId type
      rw [net_append] at even
      rw [net_append,net_append,Int.add_assoc,even]
      rfl
    · rename_i rolls
      rw [extraLegs_other made (Bool.eq_false_iff.mpr closes) (Bool.eq_false_iff.mpr rolls)]
      exact (Int.add_zero _).symm

theorem log_even {id : Nat} {log : List OrderCommit}
    (made : ∀ commit ∈ log,Transaction commit.held commit.note commit.writes commit.entries)
    (finds : ∀ before back after,log = before ++ back :: after → back.note.call.rollsBack id = true →
      FindsCharges id (chargesOf id before).standing back) (userId : Nat) (type : CashboxType) :
    net (log.flatMap (extraLegs id)) userId type = net ((chargesOf id log).left ++ (chargesOf id log).standing) userId type := by
  induction log using List.reverseRecOn with
  | nil => rfl
  | append_singleton log commit ih =>
    have earlier := ih (fun other member => made other (by simp [member])) fun before back after split =>
      finds before back (after ++ [commit]) (by simp [split])
    rw [List.flatMap_append,net_append,earlier,chargesOf_snoc,after_even (made commit (by simp)) (finds log commit [] rfl)]
    simp

-- In every run whose rollbacks all find the charges that stand, each is given back once.
theorem extra_cost_reversed_once {table : Table OrderRow} (keyed : table.Keyed) (below : ∀ key ∈ table.map (·.1),key < nextId)
    (calls : List Call) (turns : List Turn) (id : Nat)
    (finds : ∀ before back after,(serve table nextId calls turns).log = before ++ back :: after → back.note.call.rollsBack id = true →
      FindsCharges id (chargesOf id before).standing back) :
    ReversedOnce id (serve table nextId calls turns).log := by
  have made : ∀ commit ∈ (serve table nextId calls turns).log,Transaction commit.held commit.note commit.writes commit.entries :=
    fun commit member => (serve_logged keyed below member).2.1
  have undoes : ∀ before back after,(serve table nextId calls turns).log = before ++ back :: after →
      back.note.call.rollsBack id = true → Undoes (extraLegs id back) (chargesOf id before).standing := by
    intro before back after split rolls
    exact finds_undoes (made back (by simp [split])) rolls (finds before back after split rolls)
  refine ⟨fun userId type => log_even made finds userId type,?_,?_⟩
  · intro before back after split rolls
    exact (undoes before back after split rolls).2
  · intro before back after split rolls none
    have turned := (undoes before back after split rolls).1
    rw [none] at turned
    exact List.map_eq_nil_iff.mp turned

-- The courier sells for 2 000 so'm of extra cost and rolls back; finance has booked the charge
-- at `booked` on both cashboxes by then.
def chargedSale : Call := .sell (sampleLookups 3000000 1000) sampleCourier 11 {extraCost:=some 200000} (some "a")
def chargedCancel : Call :=
  .cancel (sampleLookups 3000000 1000) sampleCourier 11 {extraCost:=some 200000,comment:=some "Mijoz olmadi"} (some "a")
def bookedAt (booked now : Nat) : Lookups := {sampleLookups 3000000 now with extraCosts:=fun _ _ => some ⟨200000,booked⟩}
def chargedRollback (booked now : Nat) (targetStatus : Option String) (requestId : String) : Call :=
  .rollback (bookedAt booked now) sampleCourier 11 targetStatus (some requestId)
def chargedRun (calls : List Call) (turns : List Turn) : List OrderCommit := (serve sampleTable 12 calls turns).log
def inTurn : List Turn :=
  [.step 0 0,.step 0 0,.step 0 0,.step 0 0,.step 1 0,.step 1 0,.step 1 0,.step 1 0,.step 1 0,.step 1 0,
   .step 2 0,.step 2 0,.step 2 0,.step 2 0,.step 2 0,.step 2 0]

def foundCharge (booked : Nat) (log : List OrderCommit) (n : Nat) : Bool :=
  match log.drop n with
  | back :: _ => !back.note.call.rollsBack 11 || back.note.loaded.all fun loaded =>
      settledNear loaded booked && loaded.marketId == 1 &&
      (chargesOf 11 (log.take n)).standing.map BalanceLeg.booking == [(1,.forMarket,-200000),(7,.forCourier,-200000)] &&
      (resolveActorCourierId sampleCourier loaded (loaded.postId.bind (sampleLookups 3000000 0).posts)).toOption == some 7
  | [] => true

theorem extra_cost_reversed_once_prompt :
    net ((chargedRun [chargedSale,chargedRollback 2500 9000 none "b"] inTurn).flatMap (extraLegs 11)) 7 .forCourier = 0 ∧
    (chargedRun [chargedSale,chargedRollback 2500 9000 none "b"] inTurn).length = 2 ∧
    ReversedOnce 11 (chargedRun [chargedSale,chargedRollback 2500 9000 none "b"] inTurn) := by
  refine ⟨by decide +kernel,by decide +kernel,?_⟩
  have checked : ∀ n ∈ List.range 2,
      foundCharge 2500 (chargedRun [chargedSale,chargedRollback 2500 9000 none "b"] inTurn) n = true := by decide +kernel
  apply extra_cost_reversed_once (by decide) (by decide)
  intro before back after split rolls lookups requester targetStatus requestId loaded courierId call read resolved
  have length := congrArg List.length split
  have short : (serve sampleTable 12 [chargedSale,chargedRollback 2500 9000 none "b"] inTurn).log.length = 2 := by decide +kernel
  rw [short,List.length_append,List.length_cons] at length
  have found := checked before.length (List.mem_range.mpr (by omega))
  have member : back ∈ (serve sampleTable 12 [chargedSale,chargedRollback 2500 9000 none "b"] inTurn).log := by
    rw [split]
    simp
  have made := (serve_logged (by decide) (by decide) member).1
  rw [call] at made
  have same : Call.rollback lookups requester 11 targetStatus requestId = chargedRollback 2500 9000 none "b" := by
    rcases List.mem_cons.mp made with sale | rest
    · cases sale
    · exact List.mem_singleton.mp rest
  cases same
  simp only [foundCharge,chargedRun,split,List.drop_left,List.take_left,rolls,read,Option.all_some,Bool.not_true,Bool.false_or,
    Bool.and_eq_true,beq_iff_eq] at found
  obtain ⟨⟨⟨near,market⟩,charged⟩,actor⟩ := found
  have mine : courierId = 7 := by
    have posts : (bookedAt 2500 9000).posts = (sampleLookups 3000000 0).posts := rfl
    rw [posts] at resolved
    rw [resolved] at actor
    exact Option.some.inj actor
  subst mine
  refine .charge (by decide : (0 : Int) < 200000) ?_ ⟨2500,rfl,near⟩ ⟨2500,rfl,near⟩ rfl
  rw [charged,market]
  rfl

-- The charge is booked six seconds after the sale: the rollback does not see it. And the
-- rollback of a cancelled order to CANCELLED changes no column, so it can be repeated: every
-- time the same row of the history is given back.
theorem extra_cost_left_or_repeated :
    ((chargedRun [chargedSale,chargedRollback 7000 9000 none "b"] inTurn).length = 2 ∧
      net ((chargedRun [chargedSale,chargedRollback 7000 9000 none "b"] inTurn).flatMap (extraLegs 11)) 7 .forCourier = -200000 ∧
      net ((chargedRun [chargedSale,chargedRollback 7000 9000 none "b"] inTurn).flatMap (extraLegs 11)) 1 .forMarket = -200000) ∧
    (chargedRun [chargedCancel,chargedRollback 2500 9000 (some "cancelled") "b",chargedRollback 2500 11000 (some "cancelled") "c"]
      inTurn).length = 3 ∧
    net ((chargedRun [chargedCancel,chargedRollback 2500 9000 (some "cancelled") "b",chargedRollback 2500 11000 (some "cancelled") "c"]
      inTurn).flatMap (extraLegs 11)) 1 .forMarket = 200000 := by
  decide +kernel

end Elchi.Orders
