import Elchi.CashboxLedger
import Elchi.LockOrder
namespace Elchi.Finance
open RowLock

-- Lock order: courier → branch → main → market.
def lockOrder : CashboxType → Nat
  | .forCourier => 0
  | .branch => 1
  | .main => 2
  | .forMarket => 3
def rowOrder : Row → Nat
  | .cashbox cashbox => lockOrder cashbox.cashboxType
  | .userSalary _ => 0

-- The requests that lock cashboxes: payments, and updateBalance with the manual entries made by it.
def Call.Pays : Call → Prop
  | .updateBalance _ _ => True
  | .spendMoney _ _ => True
  | .fillTheCashbox _ _ => True
  | .paymentsFromCourier _ data => data.ToMainOrBranch
  | .paymentFromBranchToMain _ _ => True
  | .paymentsToMarket _ _ => True
  | _ => False
instance (data : CourierPayment) : Decidable data.ToMainOrBranch := inferInstanceAs (Decidable (_ ∨ _))
instance (call : Call) : Decidable call.Pays :=
  match call with
  | .updateBalance _ _ => .isTrue trivial
  | .spendMoney _ _ => .isTrue trivial
  | .fillTheCashbox _ _ => .isTrue trivial
  | .paymentsFromCourier _ data => inferInstanceAs (Decidable data.ToMainOrBranch)
  | .paymentFromBranchToMain _ _ => .isTrue trivial
  | .paymentsToMarket _ _ => .isTrue trivial
  | .createCashbox _ => .isFalse id
  | .createSalary _ => .isFalse id
  | .updateSalary _ => .isFalse id

section Programs
variable {held : List (Held Row CashboxHistory)}

-- Cashboxes of one kind are above the held ones.
def KindAbove (type : CashboxType) (held : List (Held Row CashboxHistory)) : Prop :=
  ∀ h ∈ held,∀ other,h.row = some other → rowOrder other < lockOrder type

theorem kindAbove_nil : KindAbove type [] := nofun
theorem kindAbove_cons {entry : Held Row CashboxHistory}
    (last : ∀ cashbox,entry.row = some (.cashbox cashbox) → lockOrder cashbox.cashboxType < lockOrder type)
    (plain : ∀ salary,entry.row ≠ some (.userSalary salary)) (rest : KindAbove type held) : KindAbove type (entry :: held) := by
  intro h member other shown
  rcases List.mem_cons.mp member with rfl | old
  · cases other with
    | cashbox cashbox => exact last cashbox shown
    | userSalary salary => exact absurd shown (plain salary)
  · exact rest h old other shown

theorem lockCashbox_climbs (missing : Climbs rowOrder (next none) held)
    (locked : ∀ key cashbox rows,sel key cashbox = true → KindAbove cashbox.cashboxType held ∧
      Climbs rowOrder (next (some (key,cashbox,rows))) (⟨key,some (.cashbox cashbox),rows⟩ :: held)) :
    Climbs rowOrder (lockCashbox sel next) held := by
  refine ⟨missing,?_⟩
  intro key row rows selected
  cases row with
  | cashbox cashbox => exact locked key cashbox rows selected
  | userSalary salary => cases selected

-- The second cashbox of a transfer is a locked row of its kind or one that the program opens.
structure Receives (type : CashboxType) (entry : Held Row CashboxHistory) (opened : List (Write Row)) : Prop where
  kind : ∀ cashbox,entry.row = some (.cashbox cashbox) → cashbox.cashboxType = type
  plain : ∀ salary,entry.row ≠ some (.userSalary salary)
  own : ∀ write ∈ opened,write.key = entry.key

theorem lockOrOpen_climbs (typed : ∀ key cashbox,sel key cashbox = true → cashbox.userId = userId ∧ cashbox.cashboxType = type)
    (above : KindAbove type held)
    (continues : ∀ entry cashbox opened,Receives type entry opened → Climbs rowOrder (next entry.key cashbox opened) (entry :: held)) :
    Climbs rowOrder (lockOrOpen sel userId type next) held := by
  refine lockCashbox_climbs ?_ ?_
  · intro key
    refine continues ⟨key,none,[]⟩ _ _ ⟨?_,?_,by simp [Write.key]⟩
    · intro other shown
      cases shown
    · intro salary shown
      cases shown
  · intro key cashbox rows selected
    obtain ⟨-,kind⟩ := typed key cashbox selected
    constructor
    · rw [kind]
      exact above
    · refine continues ⟨key,some (.cashbox cashbox),rows⟩ cashbox [] ⟨?_,?_,?_⟩
      · intro other same
        cases same
        exact kind
      · intro salary shown
        cases shown
      · intro write none
        exact absurd none List.not_mem_nil

theorem updateBalance_climbs (now : Nat) (dto : UpdateCashboxBalanceDto) : Climbs rowOrder (updateBalance now dto) [] := by
  unfold updateBalance
  split
  · trivial
  split
  · trivial
  refine lockCashbox_climbs trivial ?_
  intro id cashbox rows selected
  refine ⟨kindAbove_nil,?_⟩
  dsimp only
  split
  · apply commit_nothing_climbs
    trivial
  split
  · trivial
  · refine ⟨?_,?_,trivial⟩
    · simp [saveCashbox,Write.key]
    · simp

theorem paymentsFromCourier_climbs (now : Nat) (toMainOrBranch : data.ToMainOrBranch) :
    Climbs rowOrder (paymentsFromCourier now data) [] := by
  have receives : lockOrder .forCourier < lockOrder data.receiverType ∧ lockOrder data.receiverType < lockOrder .forMarket := by
    rcases toMainOrBranch with main | branch
    · rw [main]; decide
    · rw [branch]; decide
  unfold paymentsFromCourier
  split
  · trivial
  split
  · trivial
  refine lockCashbox_climbs trivial ?_
  intro courierKey courier courierRows isCourier
  obtain ⟨-,courierType⟩ := byUserType_owner isCourier
  refine ⟨kindAbove_nil,?_⟩
  dsimp only
  split
  · apply commit_nothing_climbs
    trivial
  split
  · trivial
  have overCourier : ∀ type,lockOrder .forCourier < lockOrder type → KindAbove type [⟨courierKey,some (.cashbox courier),courierRows⟩] := by
    intro type higher
    refine kindAbove_cons ?_ nofun kindAbove_nil
    intro cashbox same
    cases same
    rw [courierType]
    exact higher
  refine lockOrOpen_climbs (fun _ _ => byUserType_owner) (overCourier _ receives.1) ?_
  intro entry receiver opened receiving
  split
  · trivial
  split
  · refine lockCashbox_climbs trivial ?_
    intro marketKey market marketRows isMarket
    obtain ⟨-,marketType⟩ := byUserTypeEver_owner isMarket
    constructor
    · rw [marketType]
      refine kindAbove_cons ?_ receiving.plain (overCourier _ (receives.1.trans receives.2))
      intro cashbox same
      rw [receiving.kind cashbox same]
      exact receives.2
    · dsimp only
      split
      · trivial
      · refine ⟨?_,?_,trivial⟩
        · intro write member
          simp only [List.mem_append,List.mem_cons,List.not_mem_nil,or_false] at member
          rcases member with (new | rfl | rfl) | rfl | rfl
          · exact ⟨entry,by simp,(receiving.own write new).symm⟩
          all_goals simp [saveCashbox,Write.key]
        · simp
  · refine ⟨?_,?_,trivial⟩
    · intro write member
      simp only [List.mem_append,List.mem_cons,List.not_mem_nil,or_false] at member
      rcases member with new | rfl | rfl
      · exact ⟨entry,by simp,(receiving.own write new).symm⟩
      all_goals simp [saveCashbox,Write.key]
    · simp

theorem paymentFromBranchToMain_climbs (now : Nat) (data : BranchPayment) : Climbs rowOrder (paymentFromBranchToMain now data) [] := by
  unfold paymentFromBranchToMain
  split
  · trivial
  refine lockCashbox_climbs trivial ?_
  intro branchKey branch branchRows isBranch
  obtain ⟨-,branchType⟩ := byUserTypeEver_owner isBranch
  refine ⟨kindAbove_nil,?_⟩
  dsimp only
  split
  · apply commit_nothing_climbs
    trivial
  refine lockOrOpen_climbs (fun _ _ => byUserTypeEver_owner) ?_ ?_
  · refine kindAbove_cons ?_ nofun kindAbove_nil
    intro cashbox same
    cases same
    rw [branchType]
    decide
  intro entry main opened receiving
  split
  · trivial
  · refine ⟨?_,?_,trivial⟩
    · intro write member
      simp only [List.mem_append,List.mem_cons,List.not_mem_nil,or_false] at member
      rcases member with new | rfl | rfl
      · exact ⟨entry,by simp,(receiving.own write new).symm⟩
      all_goals simp [saveCashbox,Write.key]
    · simp

theorem paymentsToMarket_climbs (now : Nat) (data : MarketPayment) : Climbs rowOrder (paymentsToMarket now data) [] := by
  unfold paymentsToMarket
  split
  · trivial
  refine lockCashbox_climbs trivial ?_
  intro mainKey main mainRows isMain
  obtain ⟨-,mainType⟩ := byUserTypeEver_owner isMain
  refine ⟨kindAbove_nil,lockCashbox_climbs trivial ?_⟩
  intro marketKey market marketRows isMarket
  obtain ⟨-,marketType⟩ := byUserTypeEver_owner isMarket
  constructor
  · rw [marketType]
    refine kindAbove_cons ?_ nofun kindAbove_nil
    intro cashbox same
    cases same
    rw [mainType]
    decide
  · dsimp only
    split
    · apply commit_nothing_climbs
      trivial
    split
    · trivial
    · refine ⟨?_,?_,trivial⟩
      · simp [saveCashbox,Write.key]
      · simp

theorem request_climbs (call : Call) (pays : call.Pays) : Climbs rowOrder call.request [] := by
  cases call with
  | updateBalance now dto => exact updateBalance_climbs now dto
  | spendMoney now data => exact climbs_reply _ (updateBalance_climbs now _)
  | fillTheCashbox now data => exact climbs_reply _ (updateBalance_climbs now _)
  | paymentsFromCourier now data => exact paymentsFromCourier_climbs now pays
  | paymentFromBranchToMain now data => exact paymentFromBranchToMain_climbs now data
  | paymentsToMarket now data => exact paymentsToMarket_climbs now data
  | _ => cases pays

end Programs

-- Finance with any cashboxes and history, and any payments in any interleaving.
def payAll (table : Table Row) (journal : Journal CashboxHistory) (nextId : Nat) (calls : List Call) (turns : List Turn) :
    Machine Row CashboxHistory Movement (Except RpcError Answer) :=
  (Machine.start table journal nextId (calls.map Call.request)).run turns

theorem payAll_climbing {table : Table Row} {journal : Journal CashboxHistory} (keyed : table.Keyed)
    (below : ∀ key ∈ table.map (·.1),key < nextId) (refers : ∀ entry ∈ journal,entry.1 ∈ table.map (·.1)) {calls : List Call}
    (paying : ∀ call ∈ calls,call.Pays) (turns : List Turn) : (payAll table journal nextId calls turns).Climbing rowOrder := by
  apply run_climbing
  apply start_climbing keyed below refers
  intro prog member
  obtain ⟨call,here,rfl⟩ := List.mem_map.mp member
  exact request_climbs call (paying call here)

theorem payments_never_deadlock {table : Table Row} {journal : Journal CashboxHistory} (keyed : table.Keyed)
    (below : ∀ key ∈ table.map (·.1),key < nextId) (refers : ∀ entry ∈ journal,entry.1 ∈ table.map (·.1)) {calls : List Call}
    (paying : ∀ call ∈ calls,call.Pays) (turns : List Turn) :
    (∀ (who : Nat) (s : Session Row CashboxHistory Movement (Except RpcError Answer)),
      (payAll table journal nextId calls turns).sessions[who]? = some s → Ascending rowOrder s.held ∧
      ∀ sel next,s.prog = .lock sel next → ∀ key row,sel key row = true → Above rowOrder row s.held) ∧
    ¬Deadlocked (payAll table journal nextId calls turns) := by
  have climbing := payAll_climbing keyed below refers paying turns
  refine ⟨?_,climbing_free climbing⟩
  intro who s found
  refine ⟨climbing.ascending who s found,?_⟩
  intro sel next prog key row selected
  have climbs := climbing.climbs who s found
  rw [prog] at climbs
  exact (climbs.2 key row [] selected).1

-- A manager takes a courier's cash into branch 3 while the branch pays HQ, HQ pays the market by
-- click, and a sale's leg comes in: the branch's payment waits for the courier's.
def lockTable : Table Row :=
  [(1,.cashbox ⟨50000,50000,0,.forCourier,7,false⟩),(2,.cashbox ⟨90000,90000,0,.branch,3,false⟩),
   (3,.cashbox ⟨70000,70000,0,.main,0,false⟩),(4,.cashbox ⟨40000,40000,0,.forMarket,9,false⟩)]
def lockCalls : List Call := [
  .paymentsFromCourier 20 ⟨7,30000,some .cash,none,none,some 3,some .branch,some "t1"⟩,
  .paymentFromBranchToMain 20 ⟨3,20000,some .cash,none,some "t2"⟩,
  .paymentsToMarket 20 ⟨9,10000,some .cash,none,some "t3"⟩,
  .updateBalance 20 ⟨none,some 9,some .forMarket,5000,.income,.sell,none,some 11,some "req:a",none⟩]
def lockTurns : List Turn := [.step 0 0,.step 0 0,.step 1 0,.step 2 0,.step 3 0]

theorem payments_never_deadlock_crossing :
    ((payAll lockTable [] 5 lockCalls lockTurns).sessions.map fun s => s.held.map (·.key)) = [[2,1],[],[3],[4]] ∧
    ¬Deadlocked (payAll lockTable [] 5 lockCalls lockTurns) :=
  ⟨by decide,(payments_never_deadlock (by decide) (by decide) (by decide) (by decide) lockTurns).2⟩

end Elchi.Finance
