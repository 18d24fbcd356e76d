import Elchi.WebhookReplays
import Elchi.DepotParts
import Elchi.TransferBinding
namespace Elchi.Webhooks
open RowLock hiding Machine Turn
open Interleaving Batches
open Orders (ProviderAction OrderRow isSold saveRow saveOrder providerOrder)

-- What a provider owes for an order, beside whether the order is sold: the amounts of its live
-- receivables that are pending or settled.
structure Account where
  sold : Bool
  owed : List Int
deriving DecidableEq, Repr
def Account.Complete (price : Int) (account : Account) : Prop := account.sold = true ↔ account.owed = [price]
instance (price : Int) (account : Account) : Decidable (account.Complete price) :=
  inferInstanceAs (Decidable (account.sold = true ↔ account.owed = [price]))

-- How the call of the order service ends.
inductive Call where
  | succeeds | fails | lost
deriving DecidableEq, Repr
-- What a report is to the account: a status that is new to the shipment drives the order and then
-- the receivable, whose amount comes from the reply that has just moved the order.
def Account.report (price : Int) (outcome : ApplyOutcome) (action : ProviderAction) (call : Call) (account : Account) : Account :=
  if outcome = .updated then
    if action = .sell then
      if account.sold then account
      else match call with
        | .succeeds => ⟨true,[price]⟩
        | .fails => account
        | .lost => ⟨true,account.owed⟩
    else ⟨account.sold && call == .fails,[]⟩
  else account
-- A sell that the shipment's status hides although the order is not sold; a reply that sold the
-- order and is lost; a reversal whose call fails while the order is sold.
def Account.breaks (outcome : ApplyOutcome) (action : ProviderAction) (call : Call) (account : Account) : Bool :=
  if outcome = .updated then
    if action = .sell then !account.sold && call == .lost else account.sold && call == .fails
  else action == .sell && !account.sold && call == .succeeds

theorem report_complete {account : Account} (complete : account.Complete price) (outcome : ApplyOutcome) (action : ProviderAction) (call : Call) :
    ((account.report price outcome action call).Complete price ∧
      (call = .succeeds → action = .sell → (account.report price outcome action call).sold = true)) ↔
    account.breaks outcome action call = false := by
  obtain ⟨sold,owed⟩ := account
  unfold Account.report Account.breaks
  by_cases drives : outcome = .updated
  · rw [if_pos drives,if_pos drives]
    by_cases sells : action = .sell
    · rw [if_pos sells,if_pos sells]
      cases sold with
      | true => simpa using complete
      | false =>
        cases call with
        | succeeds => simp [Account.Complete]
        | fails => simpa using complete
        | lost =>
          simp only [Account.Complete,Bool.false_eq_true,false_iff] at complete
          simp [Account.Complete,complete]
    · rw [if_neg sells,if_neg sells]
      cases sold with
      | true => cases call <;> simp [Account.Complete,sells]
      | false => simp [Account.Complete,sells]
  · rw [if_neg drives,if_neg drives]
    cases sold with
    | true => simpa using complete
    | false =>
      cases call <;> cases action <;> simp [complete]

-- A webhook of a shipment: its request, when it comes and how the call it makes ends. Every other
-- statement succeeds.
structure Report where
  request : Request
  now : Nat
  call : Call
deriving DecidableEq, Repr
def Hook.fate (call : Call) : Hook → Fate
  | .marking _ _ _ _ => match call with
    | .succeeds => .goes
    | .fails => .fails
    | .lost => .lost
  | _ => .goes
def drives (env : Env) (call : Call) (reached : Office × Hook) : Office × Hook :=
  nextStatement env (reached.2.fate call) reached.1 reached.2
def report (env : Env) (g : Office) (r : Report) : Office := ((drives env r.call)^[10] ({g with now:=r.now},.arrived r.request)).1

-- What a correctly signed webhook that is not a duplicate reports: of which shipment, whether its
-- status is new there, and the action the status is mapped to.
structure Reading where
  integrationId : Nat
  orderId : Nat
  outcome : ApplyOutcome
  action : ProviderAction
deriving DecidableEq, Repr
def Delivery.fresh (env : Env) (g : Office) (delivery : Delivery) : Bool :=
  !g.taken delivery.key && (delivery.key.isSome || (truthy delivery.integration.webhookIdHeader).isNone || !env.requireDeliveryId)
def Delivery.reading (env : Env) (g : Office) (delivery : Delivery) : Option Reading :=
  match planUpdate env delivery.integration delivery.parsed g.shipments with
  | .stop _ => none
  | .upsert orderId input applied _ =>
    if applied.outcome = .unmapped then none
    else (providerAction ((mapProviderStatus env delivery.integration input.providerStatus).bind (·.action))).map fun action =>
      ⟨delivery.integration.id,orderId,applied.outcome,action⟩
def Report.reading (env : Env) (g : Office) (r : Report) : Option Reading :=
  ((authenticate env r.request).delivery.filter (Delivery.fresh env g)).bind (Delivery.reading env g)


section Statements
variable {env : Env} {call : Call}

-- The office but for the log, as the webhook changes it.
theorem drives_answered {reached : Office × Hook} (answered : reached.2.answered = true) (count : Nat) : (drives env call)^[count] reached = reached := by
  induction count with
  | zero => rfl
  | succ count ih =>
    have stays : drives env call reached = reached := by
      obtain ⟨g,hook⟩ := reached
      simp only [drives,nextStatement]
      rw [if_pos answered]
    rw [Function.iterate_succ_apply,stays,ih]
theorem drives_go {g : Office} {hook : Hook} (unanswered : hook.answered = false) (goes : hook.fate call = .goes) :
    drives env call (g,hook) = hook.go env g := by
  simp only [drives,nextStatement,unanswered,goes,Bool.false_eq_true,if_false]

-- A fresh delivery is logged and then applied.
theorem fresh_applies (call : Call) {g : Office} {request : Request} {delivery : Delivery} (verified : authenticate env request = .verified delivery)
    (fresh : delivery.fresh env g = true) : ∃ count logId next,count ≤ 3 ∧
      (drives env call)^[count] (g,.arrived request) = (next,.applying delivery logId) ∧ next.besides = g.besides := by
  have arrives : drives env call (g,.arrived request) = (Hook.arrived request).go env g := drives_go rfl rfl
  have logs : ∀ g,drives env call (g,.logging delivery) = ((g.insertLog delivery.log).1,.applying delivery (g.insertLog delivery.log).2) :=
    fun g => drives_go rfl rfl
  simp only [Delivery.fresh,Bool.and_eq_true,Bool.or_eq_true,Bool.not_eq_true'] at fresh
  obtain ⟨untaken,goesOn⟩ := fresh
  simp only [Hook.go,verified] at arrives
  cases named : delivery.key.isSome with
  | true =>
    rw [named,if_pos rfl] at arrives
    have checks : drives env call (g,.checking delivery) = (g,.logging delivery) := by
      rw [drives_go rfl rfl]
      simp only [Hook.go,untaken,Bool.false_eq_true,if_false]
    refine ⟨3,(g.insertLog delivery.log).2,_,Nat.le_refl 3,?_,insertLog_besides g delivery.log⟩
    simp only [Function.iterate_succ_apply,Function.iterate_zero_apply,arrives,checks,logs]
  | false =>
    rw [named,if_neg Bool.false_ne_true] at arrives
    have straight : drives env call (g,.arrived request) = (g,.logging delivery) := by
      rw [arrives]
      cases headed : truthy delivery.integration.webhookIdHeader with
      | none => rfl
      | some name =>
        have lenient : env.requireDeliveryId = false := by simpa [named,headed] using goesOn
        simp only [lenient,Bool.false_eq_true,if_false]
    refine ⟨2,(g.insertLog delivery.log).2,_,by omega,?_,insertLog_besides g delivery.log⟩
    simp only [Function.iterate_succ_apply,Function.iterate_zero_apply,straight,logs]

-- What the call leaves of the orders and the amount its reply names.
def Drive.marked (call : Call) (g : Office) (drive : Drive) : Depot × Int :=
  match call with
  | .succeeds => ((providerMark g.now drive.orderId drive.action g.depot).1,(providerMark g.now drive.orderId drive.action g.depot).2.getD 0)
  | .fails => (g.depot,0)
  | .lost => ((providerMark g.now drive.orderId drive.action g.depot).1,0)
def Drive.effect (call : Call) (g : Office) (integrationId : Nat) (drive : Drive) : Office :=
  match drive.receivable g.now integrationId (drive.marked call g).2 g.receivables with
  | none => {g with depot:=(drive.marked call g).1}
  | some write => Office.write {g with depot:=(drive.marked call g).1} write

theorem finishing_runs (g : Office) (delivery : Delivery) (logId : Option Nat) (applied : Applied) (count : Nat) :
    ((drives env call)^[count+1] (g,.finishing delivery logId applied)).1.besides = g.besides := by
  have finishes : drives env call (g,.finishing delivery logId applied) = (finishLog g logId applied,.accepted delivery logId applied) :=
    drives_go rfl rfl
  rw [Function.iterate_succ_apply,finishes,drives_answered rfl]
  exact finishLog_besides g logId applied
theorem marking_runs (g : Office) (delivery : Delivery) (logId : Option Nat) (applied : Applied) (drive : Drive) (count : Nat) :
    ((drives env call)^[count+4] (g,.marking delivery logId applied drive)).1.besides = (drive.effect call g delivery.integration.id).besides := by
  have marks : drives env call (g,.marking delivery logId applied drive) =
      ({g with depot:=(drive.marked call g).1},.reading delivery logId applied drive (drive.marked call g).2) := by
    cases call with
    | succeeds => rfl
    | fails => rfl
    | lost => rfl
  have reads : ∀ (g : Office) amount,drives env call (g,.reading delivery logId applied drive amount) =
      match drive.receivable g.now delivery.integration.id amount g.receivables with
      | none => (g,.finishing delivery logId applied)
      | some write => (g,.settling delivery logId applied write) := fun g amount => drives_go rfl rfl
  have settles : ∀ (g : Office) write,drives env call (g,.settling delivery logId applied write) = (g.write write,.finishing delivery logId applied) :=
    fun g write => drives_go rfl rfl
  rw [Function.iterate_succ_apply,marks,Function.iterate_succ_apply,reads]
  unfold Drive.effect
  split
  · rename_i none
    rw [none]
    exact finishing_runs _ delivery logId applied (count+1)
  · rename_i write found
    rw [found,Function.iterate_succ_apply,settles]
    exact finishing_runs _ delivery logId applied count
theorem applying_runs (call : Call) {g : Office} {delivery : Delivery} {orderId : Nat} {input : ShipmentInput} {applied : Applied} {drive : Option Drive}
    (planned : planUpdate env delivery.integration delivery.parsed g.shipments = .upsert orderId input applied drive) (logId : Option Nat) :
    ∃ shipments,∀ count,((drives env call)^[count+7] (g,.applying delivery logId)).1.besides =
      (match drive with
        | none => {g with shipments:=shipments}
        | some drive => drive.effect call {g with shipments:=shipments} delivery.integration.id : Office).besides := by
  have plans : drives env call (g,.applying delivery logId) = (g,.loading delivery logId orderId input applied drive) := by
    rw [drives_go rfl rfl]
    simp only [Hook.go,planned]
  have loads : drives env call (g,.loading delivery logId orderId input applied drive) =
      (g,.saving delivery logId orderId (upsertedShipment g.now input (g.shipments.row orderId)) applied drive) := drives_go rfl rfl
  refine ⟨g.shipments.put orderId (upsertedShipment g.now input (g.shipments.row orderId)),fun count => ?_⟩
  have saves : drives env call (g,.saving delivery logId orderId (upsertedShipment g.now input (g.shipments.row orderId)) applied drive) =
      ({g with shipments:=g.shipments.put orderId (upsertedShipment g.now input (g.shipments.row orderId))},afterSave delivery logId applied drive) :=
    drives_go rfl rfl
  rw [Function.iterate_succ_apply,plans,Function.iterate_succ_apply,loads,Function.iterate_succ_apply,saves]
  cases drive with
  | none => exact finishing_runs _ delivery logId applied (count+3)
  | some drive => exact marking_runs _ delivery logId applied drive count

end Statements

-- The one row of a key that is kept in view, rewritten or added.
theorem put_absent {V : Type} {table : Table V} (absent : key ∉ table.map (·.1)) (value : V) : table.put key value = table ++ [(key,value)] := by
  induction table with
  | nil => rfl
  | cons entry rest ih =>
    obtain ⟨k,v⟩ := entry
    obtain ⟨other,later⟩ := not_or.mp (fun listed => absent (List.mem_cons.mpr listed))
    simp only [Table.put,Ne.symm other,if_false,ih later,List.cons_append]
theorem put_only {V : Type} {table : Table V} (keyed : table.Keyed) {sel : Nat × V → Bool} {old value : V}
    (only : table.filter sel = [(key,old)]) (kept : sel (key,value) = true) : (table.put key value).filter sel = [(key,value)] := by
  induction table with
  | nil => cases only
  | cons entry rest ih =>
    obtain ⟨k,v⟩ := entry
    obtain ⟨absent,tail⟩ := List.nodup_cons.mp keyed
    by_cases same : k = key
    · subst same
      have others : rest.filter sel = [] := by
        apply List.filter_eq_nil_iff.mpr
        intro other member chosen
        have listed : other ∈ ((k,v) :: rest).filter sel := List.mem_filter.mpr ⟨.tail _ member,chosen⟩
        rw [only,List.mem_singleton] at listed
        subst listed
        exact absent (List.mem_map.mpr ⟨_,member,rfl⟩)
      simp only [Table.put,if_true,List.filter_cons,kept,others]
    · have skipped : sel (k,v) = false := by
        by_contra chosen
        have listed : (k,v) ∈ ((k,v) :: rest).filter sel := List.mem_filter.mpr ⟨List.mem_cons_self,by simpa using chosen⟩
        rw [only,List.mem_singleton] at listed
        cases listed
        exact same rfl
      simp only [List.filter_cons,skipped,Bool.false_eq_true,if_false] at only
      simp only [Table.put,same,if_false,List.filter_cons,skipped,Bool.false_eq_true]
      exact ih tail only

section Receivables
variable {integrationId orderId : Nat} {receivables : Table Receivable}

def mine (integrationId orderId : Nat) (entry : Nat × Receivable) : Bool :=
  entry.2.integrationId == integrationId && entry.2.orderId == orderId && !entry.2.isDeleted
def owed (integrationId orderId : Nat) (receivables : Table Receivable) : List Int :=
  ((receivables.filter (mine integrationId orderId)).filter fun entry => entry.2.status == .pending || entry.2.status == .settled).map (·.2.amount)

-- An order has one live receivable at most, and nothing has been settled.
structure Filed (integrationId orderId : Nat) (receivables : Table Receivable) (next : Nat) : Prop where
  keyed : receivables.Keyed
  below : ∀ key ∈ receivables.map (·.1),key < next
  single : (receivables.filter (mine integrationId orderId)).length ≤ 1
  unsettled : ∀ entry ∈ receivables.filter (mine integrationId orderId),entry.2.status ≠ .settled

theorem liveReceivable_mine : liveReceivable receivables integrationId orderId = (receivables.filter (mine integrationId orderId)).head? :=
  List.head?_filter.symm
theorem filed_cases (filed : Filed integrationId orderId receivables next) :
    receivables.filter (mine integrationId orderId) = [] ∨
      ∃ id row,receivables.filter (mine integrationId orderId) = [(id,row)] ∧ receivables.row id = some row ∧
        mine integrationId orderId (id,row) = true ∧ row.status ≠ .settled := by
  cases listed : receivables.filter (mine integrationId orderId) with
  | nil => exact .inl rfl
  | cons entry rest =>
    have short := filed.single
    rw [listed] at short
    obtain rfl : rest = [] := List.eq_nil_of_length_eq_zero (by simpa using short)
    have member : entry ∈ receivables.filter (mine integrationId orderId) := by rw [listed]; exact List.mem_cons_self
    obtain ⟨stored,selected⟩ := List.mem_filter.mp member
    exact .inr ⟨entry.1,entry.2,rfl,(row_exact filed.keyed).mp stored,selected,filed.unsettled entry member⟩

-- The table with its one receivable rewritten, or with one more.
theorem filed_save (filed : Filed integrationId orderId receivables next) {id : Nat} {old : Receivable} (row : Receivable)
    (only : receivables.filter (mine integrationId orderId) = [(id,old)]) (stored : receivables.row id = some old)
    (same : mine integrationId orderId (id,row) = true) (unsettled : row.status ≠ .settled) :
    Filed integrationId orderId ((Write.update id fun _ => row).apply receivables) next ∧
      ((Write.update id fun _ => row).apply receivables).filter (mine integrationId orderId) = [(id,row)] := by
  have saved : (Write.update id fun _ => row).apply receivables = receivables.put id row := by
    simp only [Write.apply,Write.key,stored,Write.result,Option.map_some]
  have view := put_only filed.keyed only same
  rw [saved]
  refine ⟨⟨put_keyed filed.keyed id row,fun key listed => ?_,by rw [view]; exact Nat.le_refl 1,fun entry member => ?_⟩,view⟩
  · obtain rfl | old := (put_keys_mem receivables).mp listed
    · apply filed.below
      by_contra absent
      rw [row_none.mpr absent] at stored
      cases stored
    · exact filed.below key old
  · rw [view,List.mem_singleton] at member
    subst member
    exact unsettled
theorem filed_insert (filed : Filed integrationId orderId receivables next) (row : Receivable)
    (none : receivables.filter (mine integrationId orderId) = []) (same : mine integrationId orderId (next,row) = true)
    (unsettled : row.status ≠ .settled) :
    Filed integrationId orderId (receivables.put next row) (next+1) ∧
      (receivables.put next row).filter (mine integrationId orderId) = [(next,row)] := by
  have absent : next ∉ receivables.map (·.1) := fun listed => Nat.lt_irrefl next (filed.below next listed)
  have view : (receivables.put next row).filter (mine integrationId orderId) = [(next,row)] := by
    rw [put_absent absent,List.filter_append,none]
    simp only [List.nil_append,List.filter_cons,same,if_true,List.filter_nil]
  refine ⟨⟨put_keyed filed.keyed next row,fun key listed => ?_,by rw [view]; exact Nat.le_refl 1,fun entry member => ?_⟩,view⟩
  · obtain rfl | old := (put_keys_mem receivables).mp listed
    · exact Nat.lt_succ_self _
    · exact Nat.lt_succ_of_lt (filed.below key old)
  · rw [view,List.mem_singleton] at member
    subst member
    exact unsettled

end Receivables

section Refinement
variable {integrationId orderId : Nat} {price : Int} {g : Office}

def soldIn (orderId : Nat) (depot : Depot) : Bool := (depot.orders.row orderId).any fun row => isSold row.order.status
def Office.account (integrationId orderId : Nat) (g : Office) : Account :=
  ⟨soldIn orderId g.depot,owed integrationId orderId g.receivables⟩
structure Sound (integrationId orderId : Nat) (price : Int) (g : Office) : Prop where
  positive : 0 < price
  order : ∃ row,g.depot.orders.row orderId = some row ∧ live row.order = true ∧ row.order.totalPrice = price
  filed : Filed integrationId orderId g.receivables g.nextReceivableId

theorem sound_besides {g' : Office} (same : g'.besides = g.besides) (sound : Sound integrationId orderId price g) :
    Sound integrationId orderId price g' ∧ g'.account integrationId orderId = g.account integrationId orderId := by
  simp only [Office.besides,Prod.mk.injEq] at same
  obtain ⟨-,-,receivables,nextReceivableId,depot⟩ := same
  refine ⟨⟨sound.positive,?_,?_⟩,?_⟩
  · rw [depot]; exact sound.order
  · rw [receivables,nextReceivableId]; exact sound.filed
  · simp only [Office.account,depot,receivables]

-- order.provider.mark on an order that is there.
theorem mark_order (now : Nat) (action : ProviderAction) {depot : Depot} {row : OrderRow} (here : depot.orders.row orderId = some row)
    (alive : live row.order = true) :
    (∃ after,(providerMark now orderId action depot).1.orders.row orderId = some after ∧ live after.order = true ∧
      after.order.totalPrice = row.order.totalPrice ∧ isSold after.order.status = (action == .sell)) ∧
    (providerMark now orderId action depot).2 = if action.alreadyApplied row.order.status then none else some row.order.totalPrice := by
  have found : findOrder orderId depot = .ok row := by simp only [findOrder,here,alive,if_true]
  cases applied : action.alreadyApplied row.order.status with
  | true =>
    have marked : Batches.markByProvider now orderId action depot = .ok depot := by
      simp only [Batches.markByProvider,found,bind,Except.bind,applied,if_true]
    have settled : isSold row.order.status = (action == .sell) := by
      cases action with
      | sell => exact applied
      | cancel =>
        cases status : row.order.status <;> rw [status] at applied <;> first | rfl | cases applied
      | handBack =>
        have closed : row.order.status = .closed := by simpa [ProviderAction.alreadyApplied] using applied
        rw [closed]
        rfl
    simp only [providerMark,found,marked,applied,if_true]
    exact ⟨⟨row,here,alive,rfl,settled⟩,trivial⟩
  | false =>
    have marked : Batches.markByProvider now orderId action depot = .ok (Depot.track
        {depot with orders:=applyWrites depot.orders [.update orderId (saveRow now (providerOrder now action row.order))]}
        (orderId,⟨some row.order.status,action.target⟩)) := by
      simp only [Batches.markByProvider,found,bind,Except.bind,applied,Bool.false_eq_true,if_false]
    simp only [providerMark,found,marked,applied,Bool.false_eq_true,if_false,and_true]
    refine ⟨saveRow now (providerOrder now action row.order) row,?_,?_⟩
    · simp only [Depot.track,applyWrites_row,written_update,written_nil,if_true,here,Option.map_some]
    · unfold saveRow saveOrder
      split
      · rename_i same
        have status : action.target = row.order.status := congrArg (·.status) same
        refine ⟨alive,rfl,?_⟩
        rw [← status]
        cases action <;> rfl
      · refine ⟨alive,rfl,?_⟩
        cases action <;> rfl

theorem write_depot (g : Office) (write : ReceivableWrite) : (g.write write).depot = g.depot := by
  cases write with
  | save id row => rfl
  | insert row =>
    simp only [Office.write]
    split <;> rfl
theorem record_owed (filed : Filed integrationId orderId g.receivables g.nextReceivableId) (now : Nat) {drive : Drive}
    (ours : drive.orderId = orderId) {amount : Int} (positive : 0 < amount) :
    ∃ write,recordProviderReceivable now integrationId drive amount g.receivables = some write ∧
      Filed integrationId orderId (g.write write).receivables (g.write write).nextReceivableId ∧
      owed integrationId orderId (g.write write).receivables = [amount] := by
  subst ours
  unfold recordProviderReceivable
  rw [if_pos positive,liveReceivable_mine]
  obtain none | ⟨id,row,only,stored,same,unsettled⟩ := filed_cases filed
  · rw [none]
    refine ⟨_,rfl,?_⟩
    have absent : (liveReceivable g.receivables integrationId drive.orderId).isSome = false := by rw [liveReceivable_mine,none]; rfl
    simp only [Office.write,absent,Bool.false_eq_true,if_false]
    obtain ⟨filed,view⟩ := filed_insert filed
      ⟨drive.orderId,integrationId,drive.providerSlug,drive.externalRef,amount,.pending,.none,.none,false,now⟩ none (by simp [mine]) (by simp)
    exact ⟨filed,by simp [owed,view]⟩
  · rw [only]
    simp only [List.head?_cons,unsettled,if_false]
    refine ⟨_,rfl,?_⟩
    obtain ⟨filed,view⟩ := filed_save filed {row with
      status:=.pending,amount:=amount,providerSlug:=drive.providerSlug.or row.providerSlug,
      externalRef:=drive.externalRef.or row.externalRef,remittanceId:=none,settledAt:=none} only stored same (by simp)
    exact ⟨filed,by simp [owed,Office.write,view]⟩
theorem cancel_owed (filed : Filed integrationId orderId g.receivables g.nextReceivableId) :
    cancelProviderReceivable integrationId orderId g.receivables = none ∧ owed integrationId orderId g.receivables = [] ∨
    ∃ write,cancelProviderReceivable integrationId orderId g.receivables = some write ∧
      Filed integrationId orderId (g.write write).receivables (g.write write).nextReceivableId ∧
      owed integrationId orderId (g.write write).receivables = [] := by
  have pending : cancelProviderReceivable integrationId orderId g.receivables =
      (((g.receivables.filter (mine integrationId orderId)).filter fun entry => entry.2.status == .pending).head?).map fun entry =>
        .save entry.1 {entry.2 with status:=.cancelled} := by
    unfold cancelProviderReceivable
    rw [List.filter_filter,List.head?_filter]
    congr 2
    funext entry
    simp only [mine]
    cases entry.2.status == .pending <;> simp
  rw [pending]
  obtain none | ⟨id,row,only,stored,same,unsettled⟩ := filed_cases filed
  · exact .inl (by simp [none,owed])
  · cases status : row.status with
    | pending =>
      refine .inr ⟨.save id {row with status:=.cancelled},by simp [only,status],?_⟩
      obtain ⟨filed,view⟩ := filed_save filed {row with status:=.cancelled} only stored same (by simp)
      exact ⟨filed,by simp [owed,Office.write,view]⟩
    | cancelled => exact .inl (by simp [only,owed,status])
    | settled => exact absurd status unsettled

-- What the call leaves of the order, and when its reply names the price.
theorem marked_order (sound : Sound integrationId orderId price g) (call : Call) {drive : Drive} (ours : drive.orderId = orderId) :
    (∃ row,(drive.marked call g).1.orders.row orderId = some row ∧ live row.order = true ∧ row.order.totalPrice = price) ∧
    soldIn orderId (drive.marked call g).1 = (if call = .fails then soldIn orderId g.depot else drive.action == .sell) ∧
    (drive.action = .sell → (drive.marked call g).2 = if call = .succeeds ∧ soldIn orderId g.depot = false then price else 0) := by
  subst ours
  obtain ⟨row,here,alive,priced⟩ := sound.order
  obtain ⟨⟨after,there,stays,same,sold⟩,replies⟩ := mark_order g.now drive.action here alive
  have now : soldIn drive.orderId g.depot = isSold row.order.status := by simp only [soldIn,here,Option.any_some]
  have later : soldIn drive.orderId (providerMark g.now drive.orderId drive.action g.depot).1 = (drive.action == .sell) := by
    simp only [soldIn,there,Option.any_some,sold]
  have reaches : ∃ row,(providerMark g.now drive.orderId drive.action g.depot).1.orders.row drive.orderId = some row ∧ live row.order = true ∧
      row.order.totalPrice = price := ⟨after,there,stays,same.trans priced⟩
  cases call with
  | succeeds =>
    refine ⟨reaches,later,fun sells => ?_⟩
    have reply : (drive.marked .succeeds g).2 = (if isSold row.order.status then none else some price).getD 0 := by
      simp only [Drive.marked]
      rw [replies,sells,priced]
      rfl
    rw [reply,now]
    cases isSold row.order.status with
    | true => rfl
    | false => rfl
  | fails => exact ⟨sound.order,rfl,fun _ => rfl⟩
  | lost => exact ⟨reaches,later,fun _ => rfl⟩
theorem effect_refines (sound : Sound integrationId orderId price g) (call : Call) (drive : Drive) (ours : drive.orderId = orderId) :
    Sound integrationId orderId price (drive.effect call g integrationId) ∧
    (drive.effect call g integrationId).account integrationId orderId = (g.account integrationId orderId).report price .updated drive.action call := by
  obtain ⟨order,sold,amount⟩ := marked_order sound call ours
  have written : ∀ write,Filed integrationId orderId (Office.write {g with depot:=(drive.marked call g).1} write).receivables
        (Office.write {g with depot:=(drive.marked call g).1} write).nextReceivableId →
      Sound integrationId orderId price (Office.write {g with depot:=(drive.marked call g).1} write) :=
    fun write filed => ⟨sound.positive,by rw [write_depot]; exact order,filed⟩
  have unwritten : Sound integrationId orderId price {g with depot:=(drive.marked call g).1} := ⟨sound.positive,order,sound.filed⟩
  unfold Drive.effect Drive.receivable
  by_cases sells : drive.action = .sell
  · rw [if_pos sells]
    have pays := amount sells
    by_cases moves : call = .succeeds ∧ soldIn orderId g.depot = false
    · rw [if_pos moves] at pays
      obtain ⟨rfl,before⟩ := moves
      obtain ⟨write,saves,filed,owes⟩ := record_owed (g:={g with depot:=(drive.marked .succeeds g).1}) sound.filed g.now ours sound.positive
      rw [pays,saves]
      refine ⟨written write filed,?_⟩
      simp only [Office.account,write_depot,owes,sold,Account.report,sells,before]
      rfl
    · rw [if_neg moves] at pays
      have none : recordProviderReceivable g.now integrationId drive 0 g.receivables = none := if_neg (Int.lt_irrefl 0)
      rw [pays,none]
      refine ⟨unwritten,?_⟩
      simp only [Office.account,sold,Account.report,sells,if_true]
      by_cases before : soldIn orderId g.depot = true
      · simp only [before,if_true]
        cases call <;> rfl
      · have unsold : soldIn orderId g.depot = false := by simpa using before
        simp only [unsold,Bool.false_eq_true,if_false]
        cases call with
        | succeeds => exact absurd ⟨rfl,unsold⟩ moves
        | fails => rfl
        | lost => rfl
  · rw [if_neg sells,ours]
    have after : soldIn orderId (drive.marked call g).1 = (soldIn orderId g.depot && call == .fails) := by
      rw [sold,beq_eq_false_iff_ne.mpr sells]
      cases call <;> cases soldIn orderId g.depot <;> rfl
    obtain ⟨none,owes⟩ | ⟨write,saves,filed,owes⟩ := cancel_owed (g:={g with depot:=(drive.marked call g).1}) sound.filed
    · rw [none]
      refine ⟨unwritten,?_⟩
      simp only [Office.account,after,owes,Account.report,sells,if_true,if_false]
    · rw [saves]
      refine ⟨written write filed,?_⟩
      simp only [Office.account,write_depot,after,owes,Account.report,sells,if_true,if_false]

-- A status that is new to the shipment drives the order, one that it has does not.
theorem plan_drive {env : Env} {integration : Integration} {parsed : Option Fields} {shipments : Table Shipment} {input : ShipmentInput}
    {applied : Applied} {drive : Option Drive} {action : ProviderAction}
    (planned : planUpdate env integration parsed shipments = .upsert orderId input applied drive) (mapped : applied.outcome ≠ .unmapped)
    (acts : providerAction ((mapProviderStatus env integration input.providerStatus).bind (·.action)) = some action) :
    applied.outcome = .unchanged ∧ drive = none ∨
    applied.outcome = .updated ∧ ∃ ref,drive = some ⟨orderId,action,some integration.slug,ref⟩ := by
  unfold planUpdate at planned
  split at planned
  · split at planned
    · cases planned
    · dsimp only at planned
      split at planned
      · cases planned
      · split at planned
        · cases planned
          exact absurd rfl mapped
        · split at planned
          · cases planned
            exact .inl ⟨rfl,rfl⟩
          · cases planned
            rw [acts]
            exact .inr ⟨rfl,_,rfl⟩
  · cases planned

theorem report_refines {env : Env} {r : Report} {reading : Reading} (sound : Sound reading.integrationId reading.orderId price g)
    (reads : r.reading env g = some reading) :
    Sound reading.integrationId reading.orderId price (report env g r) ∧
    (report env g r).account reading.integrationId reading.orderId =
      (g.account reading.integrationId reading.orderId).report price reading.outcome reading.action r.call := by
  obtain ⟨delivery,chosen,found⟩ := Option.bind_eq_some_iff.mp reads
  obtain ⟨known,fresh⟩ := Option.filter_eq_some_iff.mp chosen
  have verified := delivery_verified known
  obtain ⟨count,logId,next,few,reaches,same⟩ := fresh_applies r.call (g:={g with now:=r.now}) verified fresh
  have shipments : next.shipments = g.shipments := congrArg (·.2.1) same
  unfold Delivery.reading at found
  split at found
  · cases found
  rename_i orderId input applied drive planned
  split at found
  · cases found
  rename_i mapped
  obtain ⟨action,acts,rfl⟩ := Option.map_eq_some_iff.mp found
  obtain ⟨saved,runs⟩ := applying_runs r.call (shipments.symm ▸ planned) logId
  have split : 10 = (10 - count - 7 + 7) + count := by omega
  have total : report env g r = ((drives env r.call)^[10 - count - 7 + 7] (next,.applying delivery logId)).1 := by
    rw [← reaches,← Function.iterate_add_apply,← split]
    rfl
  have ends := (congrArg Office.besides total).trans (runs (10 - count - 7))
  obtain ⟨soundNext,sameNext⟩ := sound_besides same (g:={g with now:=r.now}) ⟨sound.positive,sound.order,sound.filed⟩
  have soundSaved : Sound delivery.integration.id orderId price {next with shipments:=saved} :=
    ⟨soundNext.positive,soundNext.order,soundNext.filed⟩
  obtain ⟨unchanged,rfl⟩ | ⟨updated,ref,rfl⟩ := plan_drive planned mapped acts
  · obtain ⟨soundLast,sameLast⟩ := sound_besides ends soundSaved
    refine ⟨soundLast,(sameLast.trans sameNext).trans ?_⟩
    rw [unchanged]
    rfl
  · obtain ⟨soundDriven,driven⟩ := effect_refines soundSaved r.call ⟨orderId,action,some delivery.integration.slug,ref⟩ rfl
    obtain ⟨soundLast,sameLast⟩ := sound_besides ends soundDriven
    refine ⟨soundLast,(sameLast.trans driven).trans ?_⟩
    rw [updated]
    exact congrArg (Account.report price .updated action r.call) sameNext

end Refinement

-- The reports of one shipment, none of them a break.
def Proper (env : Env) (integrationId orderId : Nat) (g : Office) (r : Report) : Prop :=
  ∃ reading,r.reading env g = some reading ∧ reading.integrationId = integrationId ∧ reading.orderId = orderId ∧
    (g.account integrationId orderId).breaks reading.outcome reading.action r.call = false
instance decideProper (env : Env) (integrationId orderId : Nat) (g : Office) (r : Report) : Decidable (Proper env integrationId orderId g r) :=
  match reads : r.reading env g with
  | none => .isFalse fun ⟨_,found,_⟩ => by rw [reads] at found; cases found
  | some reading => decidable_of_iff (reading.integrationId = integrationId ∧ reading.orderId = orderId ∧
      (g.account integrationId orderId).breaks reading.outcome reading.action r.call = false)
    ⟨fun met => ⟨reading,reads,met⟩,fun ⟨other,found,met⟩ => Option.some_inj.mp (found.symm.trans reads) ▸ met⟩
-- The order is sold exactly when its price is owed, and it is sold after a sell whose call succeeds.
def Settles (integrationId orderId : Nat) (price : Int) (env : Env) (g : Office) (r : Report) : Prop :=
  ((report env g r).account integrationId orderId).Complete price ∧
    ∀ reading,r.reading env g = some reading → r.call = .succeeds → reading.action = .sell →
      ((report env g r).account integrationId orderId).sold = true

theorem settles_exactly {env : Env} {g : Office} {r : Report} {reading : Reading} (sound : Sound reading.integrationId reading.orderId price g)
    (complete : (g.account reading.integrationId reading.orderId).Complete price) (reads : r.reading env g = some reading) :
    Settles reading.integrationId reading.orderId price env g r ↔
      (g.account reading.integrationId reading.orderId).breaks reading.outcome reading.action r.call = false := by
  obtain ⟨-,after⟩ := report_refines sound reads
  rw [← report_complete complete reading.outcome reading.action r.call,← after]
  refine and_congr Iff.rfl ⟨fun sells => sells reading reads,fun sells other found => ?_⟩
  obtain rfl : reading = other := Option.some_inj.mp (reads.symm.trans found)
  exact sells

-- In every run of reports none of which is a break, whatever the calls do, the receivable is
-- complete in every state reached and every sell that gets through has sold the order; and a report
-- keeps that exactly when it is no break.
theorem receivables_complete (env : Env) (integrationId orderId : Nat) (price : Int) :
    (∀ (g : Office) (reports : List Report),Sound integrationId orderId price g → (g.account integrationId orderId).Complete price →
      Runs.Meets (report env) (Proper env integrationId orderId) g reports →
      ∀ front r,front ++ [r] <+: reports → Settles integrationId orderId price env (Runs.runFrom (report env) g front) r) ∧
    ∀ (g : Office) (r : Report) (reading : Reading),Sound reading.integrationId reading.orderId price g →
      (g.account reading.integrationId reading.orderId).Complete price → r.reading env g = some reading →
      (Settles reading.integrationId reading.orderId price env g r ↔
        (g.account reading.integrationId reading.orderId).breaks reading.outcome reading.action r.call = false) := by
  refine ⟨fun g reports sound complete meets front r reached => ?_,fun g r reading sound complete reads => settles_exactly sound complete reads⟩
  have kept : ∀ g r,Sound integrationId orderId price g ∧ (g.account integrationId orderId).Complete price → Proper env integrationId orderId g r →
      Sound integrationId orderId price (report env g r) ∧ Settles integrationId orderId price env g r := by
    rintro g r ⟨sound,complete⟩ ⟨reading,reads,rfl,rfl,unbroken⟩
    exact ⟨(report_refines sound reads).1,(settles_exactly sound complete reads).mpr unbroken⟩
  have reachedFront : front <+: reports := (List.prefix_append front [r]).trans reached
  have standing := Runs.run_keeps_reached (P:=fun g => Sound integrationId orderId price g ∧ (g.account integrationId orderId).Complete price)
    (fun g r held met => ⟨(kept g r held met).1,(kept g r held met).2.1⟩) ⟨sound,complete⟩ meets reachedFront
  exact (kept _ r standing (Runs.meets_reached.mp meets front r reached)).2

-- Order 1 of a market with the carrier. A sell whose call fails is not driven again by the next
-- report of the same status, and one whose reply is lost leaves the order sold with nothing owed.
def carried : Office := {cargoOffice (performAll emptyDepot [parcel 100]) with
  shipments:=[(1,⟨4,some "cargo",some "R-11",none,none,none,none⟩)]}
def sellTwice (first : Call) : List Report := [⟨callback [1] "d-1",5,first⟩,⟨callback [1] "d-2",9,.succeeds⟩]
theorem sell_not_driven_again :
    (⟨callback [1] "d-2",9,.succeeds⟩ : Report).reading cargoEnv (report cargoEnv carried ⟨callback [1] "d-1",5,.fails⟩) =
      some ⟨4,1,.unchanged,.sell⟩ ∧
    (Runs.runFrom (report cargoEnv) carried (sellTwice .fails)).account 4 1 = ⟨false,[]⟩ ∧
    ¬ ((Runs.runFrom (report cargoEnv) carried (sellTwice .lost)).account 4 1).Complete 100 := by
  decide

-- A sell whose call fails, a refusal, and the sale after all with a reply that comes to nothing.
def refusedFirst : List Report :=
  [⟨callback [1] "d-1",5,.fails⟩,⟨callback [2] "d-2",9,.succeeds⟩,⟨callback [1] "d-3",12,.succeeds⟩,⟨callback [1] "d-4",14,.lost⟩]
theorem carried_sound : Sound 4 1 100 carried := by
  have stored : (carried.depot.orders.row 1).any (fun row => live row.order && row.order.totalPrice == 100) = true := by decide
  cases here : carried.depot.orders.row 1 with
  | none => rw [here] at stored; cases stored
  | some row =>
    rw [here] at stored
    simp only [Option.any_some,Bool.and_eq_true,beq_iff_eq] at stored
    exact ⟨by decide,⟨row,here,stored⟩,⟨List.nodup_nil,fun key listed => (by cases listed),Nat.zero_le 1,fun entry member => by cases member⟩⟩
theorem receivables_complete_refused_first :
    Settles 4 1 100 cargoEnv (Runs.runFrom (report cargoEnv) carried (refusedFirst.take 3)) ⟨callback [1] "d-4",14,.lost⟩ ∧
    ¬ Settles 4 1 100 cargoEnv carried ⟨callback [1] "d-1",5,.lost⟩ := by
  obtain ⟨runs,exactly⟩ := receivables_complete cargoEnv 4 1 100
  refine ⟨runs carried refusedFirst carried_sound (by decide) (by decide) _ _ (List.prefix_refl _),fun settles => ?_⟩
  have unbroken := (exactly carried ⟨callback [1] "d-1",5,.lost⟩ ⟨4,1,.updated,.sell⟩ carried_sound (by decide) (by decide)).mp settles
  exact absurd unbroken (by decide)

end Elchi.Webhooks
