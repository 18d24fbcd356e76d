import Elchi.ProviderWebhooks
import Elchi.DepotRows
import Elchi.Purge
namespace Elchi.Webhooks
open RowLock hiding Machine Turn
open Interleaving Batches

-- The same place with another log row behind it: no answer depends on it.
def Hook.withLog (logId : Option Nat) : Hook → Hook
  | .applying delivery _ => .applying delivery logId
  | .loading delivery _ orderId input applied drive => .loading delivery logId orderId input applied drive
  | .saving delivery _ orderId shipment applied drive => .saving delivery logId orderId shipment applied drive
  | .marking delivery _ applied drive => .marking delivery logId applied drive
  | .reading delivery _ applied drive amount => .reading delivery logId applied drive amount
  | .settling delivery _ applied write => .settling delivery logId applied write
  | .finishing delivery _ applied => .finishing delivery logId applied
  | .accepted delivery _ applied => .accepted delivery logId applied
  | hook => hook

-- The office but for its log.
def Office.besides (g : Office) : Nat × Table Shipment × Table Receivable × Nat × Depot :=
  (g.now,g.shipments,g.receivables,g.nextReceivableId,g.depot)
-- Two offices that agree on everything but the log, and on which of some deliveries it has.
structure Agree (K : Nat × String → Prop) (g' g : Office) : Prop where
  same : g'.besides = g.besides
  taken : ∀ key,K key → g'.taken (some key) = g.taken (some key)

theorem insertLog_taken (g : Office) (log : WebhookLog) (key : Nat × String) :
    (g.insertLog log).1.taken (some key) = (g.taken (some key) || log.key == some key) := by
  unfold Office.insertLog
  split
  · rename_i taken
    by_cases same : log.key = some key
    · rw [same] at taken
      simp [taken]
    · simp [same]
  · simp [Office.taken]
theorem finishLog_taken (g : Office) (logId : Option Nat) (applied : Applied) (key : Option (Nat × String)) :
    (finishLog g logId applied).taken key = g.taken key := by
  cases logId with
  | none => rfl
  | some id =>
    have same : ∀ log,(processedLog g.now applied.outcome log).key = log.key := fun log => rfl
    have view := update_view WebhookLog.key id (processedLog g.now applied.outcome) same g.logs
    have keys := congrArg (List.any · fun entry => entry.2 == key) view
    simp only [List.any_map,Function.comp_def] at keys
    simp only [finishLog,Office.taken,keys]
-- The row a statement inserts into the log, and what becomes of the deliveries the log has.
def Hook.logged : Hook → Option WebhookLog
  | .rejecting log _ _ => some log
  | .logging delivery => some delivery.log
  | _ => none
theorem taken_go (env : Env) (g : Office) (hook : Hook) (key : Nat × String) :
    (hook.go env g).1.taken (some key) = (g.taken (some key) || (hook.logged.bind WebhookLog.key) == some key) := by
  have kept : (g.taken (some key) || (none : Option (Nat × String)) == some key) = g.taken (some key) := Bool.or_false _
  cases hook with
  | arrived request =>
    refine Eq.trans ?_ kept.symm
    simp only [Hook.go]
    split
    · rfl
    · rfl
    · split
      · rfl
      · split
        · split
          · rfl
          · rfl
        · rfl
  | rejecting log code reason => exact insertLog_taken g log key
  | checking delivery =>
    refine Eq.trans ?_ kept.symm
    simp only [Hook.go]
    split <;> rfl
  | logging delivery => exact insertLog_taken g delivery.log key
  | applying delivery logId =>
    refine Eq.trans ?_ kept.symm
    simp only [Hook.go]
    split <;> rfl
  | reading delivery logId applied drive amount =>
    refine Eq.trans ?_ kept.symm
    simp only [Hook.go]
    split <;> rfl
  | settling delivery logId applied write =>
    refine Eq.trans ?_ kept.symm
    cases write with
    | save id row => rfl
    | insert row => simp only [Hook.go,Office.write]; split <;> rfl
  | finishing delivery logId applied => exact (finishLog_taken g logId applied (some key)).trans kept.symm
  | _ => exact kept.symm
theorem insertLog_besides (g : Office) (log : WebhookLog) : (g.insertLog log).1.besides = g.besides := by
  unfold Office.insertLog
  split
  · rfl
  · rfl
theorem finishLog_besides (g : Office) (logId : Option Nat) (applied : Applied) : (finishLog g logId applied).besides = g.besides := by
  cases logId with
  | none => rfl
  | some id => rfl

section Agreement
variable {K : Nat × String → Prop} {g' g : Office} (agree : Agree K g' g)
include agree

theorem agree_parts : g'.now = g.now ∧ g'.shipments = g.shipments ∧ g'.receivables = g.receivables ∧
    g'.nextReceivableId = g.nextReceivableId ∧ g'.depot = g.depot := by
  have same := agree.same
  simpa only [Office.besides,Prod.mk.injEq] using same
theorem agree_insert (log : WebhookLog) : Agree K (g'.insertLog log).1 (g.insertLog log).1 := by
  refine ⟨?_,fun key inside => ?_⟩
  · rw [insertLog_besides,insertLog_besides,agree.same]
  · rw [insertLog_taken,insertLog_taken,agree.taken key inside]
theorem agree_finish (logId' logId : Option Nat) (applied : Applied) : Agree K (finishLog g' logId' applied) (finishLog g logId applied) := by
  refine ⟨?_,fun key inside => ?_⟩
  · rw [finishLog_besides,finishLog_besides,agree.same]
  · rw [finishLog_taken,finishLog_taken,agree.taken key inside]
-- What the other statements write does not depend on the log either.
theorem agree_with {f' f : Office} (same : f'.besides = f.besides) (logs' : f'.logs = g'.logs) (logs : f.logs = g.logs) : Agree K f' f := by
  refine ⟨same,fun key inside => ?_⟩
  have taken := agree.taken key inside
  simpa only [Office.taken,logs',logs] using taken
theorem agree_write (write : ReceivableWrite) : Agree K (g'.write write) (g.write write) := by
  obtain ⟨now,shipments,receivables,nextReceivableId,depot⟩ := agree_parts agree
  cases write with
  | save id row =>
    refine agree_with agree ?_ rfl rfl
    simp [Office.besides,Office.write,now,shipments,receivables,nextReceivableId,depot]
  | insert row =>
    simp only [Office.write,receivables,nextReceivableId]
    split
    · exact agree
    · refine agree_with agree ?_ rfl rfl
      simp [Office.besides,now,shipments,depot]

-- Wherever a request of one of those deliveries stands, the next statement does the same in both.
def Hook.Within (env : Env) (K : Nat × String → Prop) : Hook → Prop
  | .arrived request => ∀ key,(authenticate env request).delivery.bind Delivery.key = some key → K key
  | .checking delivery | .logging delivery => ∀ key,delivery.key = some key → K key
  | _ => True
theorem go_agrees (env : Env) {hook : Hook} (within : hook.Within env K) (logId : Option Nat) : ∃ next,
    ((hook.withLog logId).go env g').2 = ((hook.go env g).2).withLog next ∧ Agree K ((hook.withLog logId).go env g').1 (hook.go env g).1 := by
  obtain ⟨now,shipments,receivables,nextReceivableId,depot⟩ := agree_parts agree
  cases hook with
  | arrived request =>
    refine ⟨none,?_⟩
    simp only [Hook.withLog,Hook.go]
    split
    · exact ⟨rfl,agree⟩
    · exact ⟨rfl,agree⟩
    · split
      · exact ⟨rfl,agree⟩
      · split
        · split
          · exact ⟨rfl,agree⟩
          · exact ⟨rfl,agree⟩
        · exact ⟨rfl,agree⟩
  | rejecting log code reason => exact ⟨none,rfl,agree_insert agree log⟩
  | checking delivery =>
    refine ⟨none,?_⟩
    have same : g'.taken delivery.key = g.taken delivery.key := by
      cases named : delivery.key with
      | none => rfl
      | some key => exact agree.taken key (within key named)
    simp only [Hook.withLog,Hook.go,same]
    split
    · exact ⟨rfl,agree⟩
    · exact ⟨rfl,agree⟩
  | logging delivery => exact ⟨_,rfl,agree_insert agree delivery.log⟩
  | applying delivery id =>
    refine ⟨logId,?_⟩
    simp only [Hook.withLog,Hook.go,shipments]
    split
    · exact ⟨rfl,agree⟩
    · exact ⟨rfl,agree⟩
  | loading delivery id orderId input applied drive =>
    refine ⟨logId,?_,agree⟩
    simp only [Hook.withLog,Hook.go,shipments,now]
  | saving delivery id orderId shipment applied drive =>
    refine ⟨logId,?_,agree_with agree ?_ rfl rfl⟩
    · simp only [Hook.withLog,Hook.go]
      cases drive with
      | none => rfl
      | some drive => rfl
    · simp [Office.besides,Hook.go,Hook.withLog,now,shipments,receivables,nextReceivableId,depot]
  | marking delivery id applied drive =>
    refine ⟨logId,?_,agree_with agree ?_ rfl rfl⟩
    · simp only [Hook.withLog,Hook.go,now,depot]
    · simp [Office.besides,Hook.go,Hook.withLog,now,shipments,receivables,nextReceivableId,depot]
  | reading delivery id applied drive amount =>
    refine ⟨logId,?_⟩
    simp only [Hook.withLog,Hook.go,now,receivables]
    split
    · exact ⟨rfl,agree⟩
    · exact ⟨rfl,agree⟩
  | settling delivery id applied write => exact ⟨logId,rfl,agree_write agree write⟩
  | finishing delivery id applied => exact ⟨logId,rfl,agree_finish agree logId id applied⟩
  | accepted delivery id applied => exact ⟨logId,rfl,agree⟩
  | duplicate _ | refused _ _ | failed | dead _ => exact ⟨none,rfl,agree⟩

end Agreement

theorem withLog_again (first second : Option Nat) (hook : Hook) : (hook.withLog first).withLog second = hook.withLog second := by
  cases hook <;> rfl
theorem withLog_answered (logId : Option Nat) (hook : Hook) : (hook.withLog logId).answered = hook.answered := by
  cases hook <;> rfl
theorem withLog_error (logId : Option Nat) (hook : Hook) : ∃ next,(hook.withLog logId).afterError = hook.afterError.withLog next := by
  cases hook with
  | logging delivery => exact ⟨none,rfl⟩
  | _ => exact ⟨logId,rfl⟩

theorem withLog_died (logId : Option Nat) (hook : Hook) : (hook.withLog logId).died = hook.died.withLog none := by
  cases hook <;> rfl

theorem go_within (env : Env) {K : Nat × String → Prop} (g : Office) {hook : Hook} (within : hook.Within env K) : (hook.go env g).2.Within env K := by
  cases hook with
  | arrived request =>
    simp only [Hook.go]
    split
    · trivial
    · trivial
    · rename_i delivery verified
      have carried : ∀ key,delivery.key = some key → K key := fun key named => within key (by rw [verified]; exact named)
      split
      · exact carried
      · split
        · split
          · trivial
          · exact carried
        · exact carried
  | checking delivery =>
    simp only [Hook.go]
    split
    · trivial
    · exact within
  | applying delivery id =>
    simp only [Hook.go]
    split <;> trivial
  | saving delivery id orderId shipment applied drive => cases drive <;> trivial
  | reading delivery id applied drive amount =>
    simp only [Hook.go]
    split <;> trivial
  | _ => trivial
theorem error_within (env : Env) {K : Nat × String → Prop} (hook : Hook) : hook.afterError.Within env K := by
  cases hook <;> trivial
theorem died_within (env : Env) {K : Nat × String → Prop} (hook : Hook) : hook.died.Within env K := by
  cases hook <;> trivial

theorem next_agrees (env : Env) (fate : Fate) {K : Nat × String → Prop} {g' g : Office} (agree : Agree K g' g) {hook : Hook}
    (within : hook.Within env K) (logId : Option Nat) : ∃ next,
    (nextStatement env fate g' (hook.withLog logId)).2 = ((nextStatement env fate g hook).2).withLog next ∧
      Agree K (nextStatement env fate g' (hook.withLog logId)).1 (nextStatement env fate g hook).1 ∧
      (nextStatement env fate g hook).2.Within env K := by
  unfold nextStatement
  rw [withLog_answered]
  split
  · exact ⟨logId,rfl,agree,within⟩
  obtain ⟨next,same,after⟩ := go_agrees agree env within logId
  obtain ⟨late,failed⟩ := withLog_error logId hook
  cases fate with
  | goes => exact ⟨next,same,after,go_within env g within⟩
  | fails => exact ⟨late,failed,agree,error_within env hook⟩
  | lost => exact ⟨late,failed,after,error_within env hook⟩
  | dies => exact ⟨none,withLog_died logId hook,agree,died_within env hook⟩

theorem receive_agrees (env : Env) (request : Request) (fates : List Fate) {K : Nat × String → Prop} {g' g : Office} (agree : Agree K g' g)
    (within : (Hook.arrived request).Within env K) :
    (receiveWebhook env request fates g').2.withLog none = (receiveWebhook env request fates g).2.withLog none ∧
      Agree K (receiveWebhook env request fates g').1 (receiveWebhook env request fates g).1 := by
  have general : ∀ (fates : List Fate) (logId : Option Nat) (g' g : Office) (hook : Hook),Agree K g' g → hook.Within env K → ∃ next,
      (fates.foldl (fun reached fate => nextStatement env fate reached.1 reached.2) (g',hook.withLog logId)).2 =
        (fates.foldl (fun reached fate => nextStatement env fate reached.1 reached.2) (g,hook)).2.withLog next ∧
      Agree K (fates.foldl (fun reached fate => nextStatement env fate reached.1 reached.2) (g',hook.withLog logId)).1
        (fates.foldl (fun reached fate => nextStatement env fate reached.1 reached.2) (g,hook)).1 := by
    intro fates
    induction fates with
    | nil => exact fun logId g' g hook agree within => ⟨logId,rfl,agree⟩
    | cons fate rest ih =>
      intro logId g' g hook agree within
      obtain ⟨next,same,after,inside⟩ := next_agrees env fate agree within logId
      have later := ih next _ _ _ after inside
      simp only [List.foldl_cons]
      rw [show nextStatement env fate g' (hook.withLog logId) =
        ((nextStatement env fate g' (hook.withLog logId)).1,((nextStatement env fate g hook).2).withLog next) from Prod.ext rfl same]
      exact later
  obtain ⟨next,same,after⟩ := general fates none g' g (.arrived request) agree within
  refine ⟨?_,after⟩
  have erased := congrArg (Hook.withLog none) same
  rwa [withLog_again] at erased

end Elchi.Webhooks
