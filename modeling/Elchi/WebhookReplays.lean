import Elchi.UnsignedWebhooks
namespace Elchi.Webhooks
open RowLock hiding Machine Turn
open Interleaving Batches
variable {k : Nat × String}

-- How far a copy of a delivery has come: its update is executed from the log insert on.
inductive Phase where
  | checking | logging | executing | duplicate
deriving DecidableEq, Repr
def Hook.stage : Hook → Option (Delivery × Phase)
  | .checking delivery => some (delivery,.checking)
  | .logging delivery => some (delivery,.logging)
  | .applying delivery _ | .loading delivery _ _ _ _ _ | .saving delivery _ _ _ _ _ | .marking delivery _ _ _
  | .reading delivery _ _ _ _ | .settling delivery _ _ _ | .finishing delivery _ _ | .accepted delivery _ _
  | .dead (some delivery) => some (delivery,.executing)
  | .duplicate delivery => some (delivery,.duplicate)
  | _ => none
-- A request as a copy of the delivery `k`.
def Hook.copy (k : Nat × String) (hook : Hook) : Option Phase :=
  (hook.stage.filter fun stage => stage.1.key == some k).map (·.2)
def copyAt (k : Nat × String) (m : Machine Office Hook) (who : Nat) : Option Phase := m.workers[who]?.bind (Hook.copy k)

-- The delivery is executed by one copy at most, every other one that is answered is a duplicate,
-- and there are duplicates only of a delivery that is executed.
structure AppliedOnce (k : Nat × String) (m : Machine Office Hook) : Prop where
  once : ∀ a b,copyAt k m a = some .executing → copyAt k m b = some .executing → a = b
  others : ∀ a b hook phase,copyAt k m a = some .executing → b ≠ a → m.workers[b]? = some hook → hook.answered = true →
    hook.copy k = some phase → phase = .duplicate
  neverLost : ∀ b,copyAt k m b = some .duplicate → ∃ a,copyAt k m a = some .executing

-- The log insert of a copy is neither refused by the unique index nor lost to an error, and no
-- statement from there to the shipment's update fails, nor does the process die before the update
-- is done.
def Hook.Unbroken (k : Nat × String) (g : Office) (fate : Fate) : Hook → Prop
  | .logging delivery => delivery.key = some k → fate = .dies ∨ fate ≠ .fails ∧ g.taken (some k) = false
  | .applying delivery _ | .loading delivery _ _ _ _ _ | .saving delivery _ _ _ _ _ => delivery.key = some k → fate = .goes
  | .marking delivery _ _ _ | .reading delivery _ _ _ _ | .settling delivery _ _ _ => delivery.key = some k → fate ≠ .dies
  | _ => True
-- And no request that is turned away puts the delivery into the log.
def Hook.Clear (env : Env) (k : Nat × String) : Hook → Prop
  | .arrived request => match authenticate env request with
    | .rejected log _ _ => log.key ≠ some k
    | _ => True
  | .rejecting log _ _ => log.key ≠ some k
  | _ => True
def Unbroken (env : Env) (k : Nat × String) (m : Machine Office Hook) : Turn Request Fate Nat → Prop
  | .arrive request => (Hook.arrived request).Clear env k
  | .step who fate => ∀ hook ∈ m.workers[who]?,hook.Unbroken k m.shared fate
  | .world _ => True

instance decideUnbroken (k : Nat × String) (g : Office) (fate : Fate) : (hook : Hook) → Decidable (hook.Unbroken k g fate)
  | .logging delivery => inferInstanceAs (Decidable (delivery.key = some k → fate = .dies ∨ fate ≠ .fails ∧ g.taken (some k) = false))
  | .applying delivery _ | .loading delivery _ _ _ _ _ | .saving delivery _ _ _ _ _ =>
    inferInstanceAs (Decidable (delivery.key = some k → fate = .goes))
  | .marking delivery _ _ _ | .reading delivery _ _ _ _ | .settling delivery _ _ _ =>
    inferInstanceAs (Decidable (delivery.key = some k → fate ≠ .dies))
  | .arrived _ | .rejecting _ _ _ | .checking _ | .finishing _ _ _ | .accepted _ _ _ | .duplicate _ | .refused _ _ | .failed | .dead _ =>
    .isTrue trivial
instance decideClear (env : Env) (k : Nat × String) (request : Request) : Decidable ((Hook.arrived request).Clear env k) :=
  match known : authenticate env request with
  | .rejected log _ _ => decidable_of_iff (log.key ≠ some k) (by simp only [Hook.Clear,known])
  | .thrown => .isTrue (by simp only [Hook.Clear,known])
  | .verified _ => .isTrue (by simp only [Hook.Clear,known])
instance (env : Env) (k : Nat × String) (m : Machine Office Hook) : (turn : Turn Request Fate Nat) → Decidable (Unbroken env k m turn)
  | .arrive request => decideClear env k request
  | .step who fate => inferInstanceAs (Decidable (∀ hook ∈ m.workers[who]?,hook.Unbroken k m.shared fate))
  | .world _ => .isTrue trivial

-- What a statement can do to a copy and to the delivery's mark in the log.
inductive Moves : Bool → Option Phase → Bool → Option Phase → Prop where
  | stays : Moves marked phase marked phase
  | comes : Moves marked none marked (some .checking)
  | drops : phase ≠ .executing → phase ≠ .duplicate → Moves marked (some phase) marked none
  | passes : Moves false (some .checking) false (some .logging)
  | repeats : Moves true (some .checking) true (some .duplicate)
  | logs : Moves false (some .logging) true (some .executing)

theorem copy_stage (hook : Hook) (stands : hook.stage = some (delivery,phase)) :
    hook.copy k = if delivery.key = some k then some phase else none := by
  simp only [Hook.copy,stands,Option.filter_some,beq_iff_eq]
  split <;> rfl
theorem copy_nowhere {hook : Hook} (nowhere : hook.stage = none) : hook.copy k = none := by
  simp only [Hook.copy,nowhere,Option.filter_none,Option.map_none]

theorem answered_copy {hook : Hook} (answered : hook.answered = true) (copies : hook.copy k = some phase) :
    phase = .executing ∨ phase = .duplicate := by
  obtain ⟨⟨delivery,stands⟩,ours,rfl⟩ := Option.map_eq_some_iff.mp copies
  have staged := (Option.filter_eq_some_iff.mp ours).1
  cases hook with
  | accepted _ _ _ => cases staged; exact .inl rfl
  | duplicate _ => cases staged; exact .inr rfl
  | dead applied =>
    cases applied with
    | none => cases staged
    | some delivery => cases staged; exact .inl rfl
  | refused _ _ | failed => cases staged
  | _ => cases answered

-- A delivery that has an id is logged under its own key.
theorem logged_key {delivery : Delivery} (named : k.2 ≠ "") : delivery.log.key = some k ↔ delivery.key = some k := by
  obtain ⟨integration,id⟩ := k
  unfold Delivery.key Delivery.log WebhookLog.key truthy
  cases delivery.deliveryId with
  | none => simp
  | some text =>
    by_cases empty : text = ""
    · subst empty
      simp only [Option.filter_some,Option.some.injEq,Prod.mk.injEq]
      exact ⟨fun same => absurd same.2.symm named,fun same => by simp at same⟩
    · simp [Option.filter_some,empty]
theorem unlogged_taken (env : Env) (g : Office) (hook : Hook) (unlogged : hook.logged.bind WebhookLog.key ≠ some k) :
    (hook.go env g).1.taken (some k) = g.taken (some k) := by
  rw [taken_go,beq_eq_false_iff_ne.mpr unlogged,Bool.or_false]

section Step
variable {env : Env} {g : Office} {hook : Hook} {fate : Fate}

-- A copy that executes the update goes on with it; another request may drop out.
theorem executing_go (env : Env) (g : Office) (executing : hook.stage = some (delivery,.executing)) :
    (hook.go env g).2.stage = some (delivery,.executing) ∧ (hook.go env g).1.taken (some k) = g.taken (some k) := by
  have unlogged : hook.logged.bind WebhookLog.key ≠ some k := by
    cases hook with
    | rejecting _ _ _ | logging _ => cases executing
    | _ => simp [Hook.logged]
  refine ⟨?_,unlogged_taken env g _ unlogged⟩
  cases hook with
  | applying _ _ | reading _ _ _ _ _ =>
    rw [← executing]
    simp only [Hook.go]
    split <;> rfl
  | saving _ _ _ _ _ drive => rw [← executing]; cases drive <;> rfl
  | arrived _ | rejecting _ _ _ | checking _ | logging _ | duplicate _ | refused _ _ | failed => cases executing
  | _ => exact executing
theorem executing_error (executing : hook.stage = some (delivery,.executing)) (unanswered : hook.answered = false)
    (unbroken : hook.Unbroken k g fate) (wrong : fate ≠ .goes) :
    hook.afterError.stage = some (delivery,.executing) ∨ delivery.key ≠ some k ∧ hook.afterError.stage = none := by
  cases hook with
  | applying _ _ | loading _ _ _ _ _ _ | saving _ _ _ _ _ _ =>
    cases executing
    exact .inr ⟨fun ours => wrong (unbroken ours),rfl⟩
  | marking _ _ _ _ | reading _ _ _ _ _ | settling _ _ _ _ | finishing _ _ _ => exact .inl executing
  | accepted _ _ _ | dead _ => cases unanswered
  | _ => cases executing
theorem executing_died (executing : hook.stage = some (delivery,.executing)) (unanswered : hook.answered = false)
    (unbroken : hook.Unbroken k g .dies) :
    hook.died.stage = some (delivery,.executing) ∨ delivery.key ≠ some k ∧ hook.died.stage = none := by
  cases hook with
  | applying _ _ | loading _ _ _ _ _ _ | saving _ _ _ _ _ _ =>
    cases executing
    exact .inr ⟨fun ours => Fate.noConfusion (unbroken ours),rfl⟩
  | marking _ _ _ _ | reading _ _ _ _ _ | settling _ _ _ _ =>
    cases executing
    exact .inr ⟨fun ours => unbroken ours rfl,rfl⟩
  | finishing _ _ _ => exact .inl executing
  | accepted _ _ _ | dead _ => cases unanswered
  | _ => cases executing
theorem executing_moves (executing : hook.stage = some (delivery,.executing)) (unanswered : hook.answered = false)
    (unbroken : hook.Unbroken k g fate) :
    Moves (g.taken (some k)) (hook.copy k) ((nextStatement env fate g hook).1.taken (some k)) ((nextStatement env fate g hook).2.copy k) := by
  obtain ⟨stands,kept⟩ := executing_go (k:=k) env g executing
  -- either it is still executing or it was never a copy of this delivery
  have settled : ∀ next : Hook,next.stage = some (delivery,.executing) ∨ delivery.key ≠ some k ∧ next.stage = none →
      next.copy k = hook.copy k := by
    intro next reached
    rw [copy_stage hook executing]
    obtain still | ⟨other,gone⟩ := reached
    · exact copy_stage next still
    · rw [copy_nowhere gone,if_neg other]
  simp only [nextStatement,unanswered,Bool.false_eq_true,if_false]
  cases fate with
  | goes =>
    rw [kept,settled _ (.inl stands)]
    exact .stays
  | fails =>
    rw [settled _ (executing_error executing unanswered unbroken (by decide))]
    exact .stays
  | lost =>
    rw [kept,settled _ (executing_error executing unanswered unbroken (by decide))]
    exact .stays
  | dies =>
    rw [settled _ (executing_died executing unanswered unbroken)]
    exact .stays

-- Statements that change neither the delivery's mark nor the copy.
theorem lasting_moves (unanswered : hook.answered = false) (taken : (hook.go env g).1.taken (some k) = g.taken (some k))
    (goes : (hook.go env g).2.copy k = hook.copy k) (fails : hook.afterError.copy k = hook.copy k) (dies : hook.died.copy k = hook.copy k) :
    Moves (g.taken (some k)) (hook.copy k) ((nextStatement env fate g hook).1.taken (some k)) ((nextStatement env fate g hook).2.copy k) := by
  simp only [nextStatement,unanswered,Bool.false_eq_true,if_false]
  cases fate with
  | goes => rw [taken,goes]; exact .stays
  | fails => rw [fails]; exact .stays
  | lost => rw [taken,fails]; exact .stays
  | dies => rw [dies]; exact .stays
theorem arrived_moves (request : Request) :
    Moves (g.taken (some k)) none ((nextStatement env fate g (.arrived request)).1.taken (some k))
      ((nextStatement env fate g (.arrived request)).2.copy k) := by
  have unlogged := unlogged_taken (k:=k) env g (.arrived request) (by simp [Hook.logged])
  have goes : ((Hook.arrived request).go env g).2.copy k = none ∨ ((Hook.arrived request).go env g).2.copy k = some .checking := by
    simp only [Hook.go]
    split
    · exact .inl rfl
    · exact .inl rfl
    · rename_i delivery verified
      split
      · rw [copy_stage (.checking delivery) rfl]
        split
        · exact .inr rfl
        · exact .inl rfl
      · rename_i nameless
        have other : delivery.key ≠ some k := fun named => nameless (by rw [named]; rfl)
        have elsewhere : (Hook.logging delivery).copy k = none := by rw [copy_stage (.logging delivery) rfl,if_neg other]
        split
        · split
          · exact .inl rfl
          · exact .inl elsewhere
        · exact .inl elsewhere
  cases fate with
  | goes =>
    have first : nextStatement env .goes g (.arrived request) = (Hook.arrived request).go env g := rfl
    rw [first,unlogged]
    obtain apart | copies := goes
    · rw [apart]; exact .stays
    · rw [copies]; exact .comes
  | fails => exact .stays
  | lost =>
    have first : nextStatement env .lost g (.arrived request) = (((Hook.arrived request).go env g).1,.failed) := rfl
    rw [first,unlogged]
    exact .stays
  | dies => exact .stays
theorem checking_moves (delivery : Delivery) :
    Moves (g.taken (some k)) ((Hook.checking delivery).copy k) ((nextStatement env fate g (.checking delivery)).1.taken (some k))
      ((nextStatement env fate g (.checking delivery)).2.copy k) := by
  have unlogged := unlogged_taken (k:=k) env g (.checking delivery) (by simp [Hook.logged])
  have kept : (nextStatement env fate g (.checking delivery)).1.taken (some k) = g.taken (some k) := by
    cases fate with
    | goes => exact unlogged
    | fails => rfl
    | lost => exact unlogged
    | dies => rfl
  rw [kept,copy_stage (.checking delivery) rfl]
  by_cases ours : delivery.key = some k
  · rw [if_pos ours]
    have dropped : Moves (g.taken (some k)) (some .checking) (g.taken (some k)) none := .drops (by decide) (by decide)
    cases fate with
    | goes =>
      have next : (nextStatement env .goes g (.checking delivery)).2 =
          if g.taken (some k) then .duplicate delivery else .logging delivery := by
        simp only [nextStatement,Hook.answered,Bool.false_eq_true,if_false,Hook.go,ours]
        split <;> rfl
      rw [next]
      cases marked : g.taken (some k) with
      | true =>
        rw [if_pos rfl,copy_stage (.duplicate delivery) rfl,if_pos ours]
        exact .repeats
      | false =>
        rw [if_neg Bool.false_ne_true,copy_stage (.logging delivery) rfl,if_pos ours]
        exact .passes
    | fails => exact dropped
    | lost => exact dropped
    | dies => exact dropped
  · rw [if_neg ours]
    have elsewhere : (nextStatement env fate g (.checking delivery)).2.copy k = none := by
      cases fate with
      | goes =>
        simp only [nextStatement,Hook.answered,Bool.false_eq_true,if_false,Hook.go]
        split
        · rw [copy_stage (.duplicate delivery) rfl,if_neg ours]
        · rw [copy_stage (.logging delivery) rfl,if_neg ours]
      | fails => rfl
      | lost => rfl
      | dies => rfl
    rw [elsewhere]
    exact .stays
theorem logging_moves (named : k.2 ≠ "") {delivery : Delivery} (unbroken : (Hook.logging delivery).Unbroken k g fate) :
    Moves (g.taken (some k)) ((Hook.logging delivery).copy k) ((nextStatement env fate g (.logging delivery)).1.taken (some k))
      ((nextStatement env fate g (.logging delivery)).2.copy k) := by
  have logged := insertLog_taken g delivery.log k
  by_cases ours : delivery.key = some k
  · have goesOn : ∀ logId,(Hook.applying delivery logId).copy k = some .executing := fun logId => by
      rw [copy_stage (.applying delivery logId) rfl,if_pos ours]
    have marks : (g.insertLog delivery.log).1.taken (some k) = true := by rw [logged,(logged_key named).mpr ours]; simp
    rw [copy_stage (.logging delivery) rfl,if_pos ours]
    have dropped : Moves (g.taken (some k)) (some .logging) (g.taken (some k)) none := .drops (by decide) (by decide)
    obtain rfl | ⟨written,free⟩ := unbroken ours
    · exact dropped
    · rw [free]
      cases fate with
      | goes =>
        have next : nextStatement env .goes g (.logging delivery) = ((g.insertLog delivery.log).1,.applying delivery (g.insertLog delivery.log).2) := rfl
        rw [next,goesOn,marks]
        exact .logs
      | fails => exact absurd rfl written
      | lost =>
        have next : nextStatement env .lost g (.logging delivery) = ((g.insertLog delivery.log).1,.applying delivery none) := rfl
        rw [next,goesOn,marks]
        exact .logs
      | dies => exact free ▸ dropped
  · have elsewhere : (Hook.logging delivery).copy k = none := by rw [copy_stage (.logging delivery) rfl,if_neg ours]
    have after : ∀ logId,(Hook.applying delivery logId).copy k = none := fun logId => by
      rw [copy_stage (.applying delivery logId) rfl,if_neg ours]
    have unmarked : (g.insertLog delivery.log).1.taken (some k) = g.taken (some k) :=
      unlogged_taken env g (.logging delivery) fun same => ours ((logged_key named).mp same)
    exact lasting_moves rfl unmarked ((after _).trans elsewhere.symm) ((after none).trans elsewhere.symm) elsewhere.symm

variable (env) in
theorem next_moves (named : k.2 ≠ "") (clear : hook.Clear env k) (unbroken : hook.Unbroken k g fate) :
    Moves (g.taken (some k)) (hook.copy k) ((nextStatement env fate g hook).1.taken (some k)) ((nextStatement env fate g hook).2.copy k) := by
  cases answered : hook.answered with
  | true =>
    simp only [nextStatement,answered,if_true]
    exact .stays
  | false =>
    cases hook with
    | arrived request => exact arrived_moves request
    | rejecting log code reason =>
      have unlogged : (Hook.rejecting log code reason).logged.bind WebhookLog.key ≠ some k := clear
      exact lasting_moves answered (unlogged_taken env g _ unlogged) rfl rfl rfl
    | checking delivery => exact checking_moves delivery
    | logging delivery => exact logging_moves named unbroken
    | applying _ _ | loading _ _ _ _ _ _ | saving _ _ _ _ _ _ | marking _ _ _ _ | reading _ _ _ _ _ | settling _ _ _ _ | finishing _ _ _ =>
      exact executing_moves rfl rfl unbroken
    | accepted _ _ _ | duplicate _ | refused _ _ | failed | dead _ => cases answered

theorem next_clear (clear : hook.Clear env k) : (nextStatement env fate g hook).2.Clear env k := by
  have goes : (hook.go env g).2.Clear env k := by
    cases hook with
    | arrived request =>
      simp only [Hook.Clear] at clear
      simp only [Hook.go]
      split
      · trivial
      · rename_i log code reason rejected
        rw [rejected] at clear
        exact clear
      · split
        · trivial
        · split
          · split
            · simp [Hook.Clear,Delivery.missingId,Delivery.log,WebhookLog.key]
            · trivial
          · trivial
    | checking delivery => simp only [Hook.go]; split <;> trivial
    | applying delivery logId => simp only [Hook.go]; split <;> trivial
    | saving delivery logId orderId shipment applied drive => cases drive <;> trivial
    | reading delivery logId applied drive amount => simp only [Hook.go]; split <;> trivial
    | _ => trivial
  have wrong : hook.afterError.Clear env k := by cases hook <;> trivial
  have died : hook.died.Clear env k := by cases hook <;> trivial
  unfold nextStatement
  split
  · exact clear
  · cases fate with
    | goes => exact goes
    | fails => exact wrong
    | lost => exact wrong
    | dies => exact died

end Step

section Copies
variable {marked after : Bool} {copies : Nat → Option Phase} {who : Nat} {phase : Option Phase}

-- The log has the delivery exactly when a copy executes it, and that is one copy.
structure OneExecutes (marked : Bool) (copies : Nat → Option Phase) : Prop where
  once : ∀ a b,copies a = some .executing → copies b = some .executing → a = b
  marks : marked = true ↔ ∃ a,copies a = some .executing
  repeats : ∀ b,copies b = some .duplicate → marked = true

theorem aside_one (one : OneExecutes marked copies) (before : copies who ≠ some .executing) (apart : phase ≠ some .executing)
    (repeats : phase = some .duplicate → marked = true) : OneExecutes marked (Function.update copies who phase) := by
  have same : ∀ a,Function.update copies who phase a = some .executing ↔ copies a = some .executing := by
    intro a
    by_cases here : a = who
    · subst here
      rw [Function.update_self]
      exact ⟨fun executing => absurd executing apart,fun executing => absurd executing before⟩
    · rw [Function.update_of_ne here]
  refine ⟨fun a b left right => one.once a b ((same a).mp left) ((same b).mp right),one.marks.trans (exists_congr fun a => (same a).symm),fun b copied => ?_⟩
  by_cases here : b = who
  · subst here
    rw [Function.update_self] at copied
    exact repeats copied
  · rw [Function.update_of_ne here] at copied
    exact one.repeats b copied
theorem moves_one (one : OneExecutes marked copies) (moves : Moves marked (copies who) after phase) :
    OneExecutes after (Function.update copies who phase) := by
  generalize stands : copies who = before at moves
  cases moves with
  | stays => rw [← stands,Function.update_eq_self]; exact one
  | comes => exact aside_one one (by rw [stands]; decide) (by decide) (fun copied => by cases copied)
  | drops busy _ => exact aside_one one (by rw [stands]; simpa using busy) (by decide) (fun copied => by cases copied)
  | passes => exact aside_one one (by rw [stands]; decide) (by decide) (fun copied => by cases copied)
  | repeats => exact aside_one one (by rw [stands]; decide) (by decide) (fun _ => rfl)
  | logs =>
    have nobody : ∀ a,copies a ≠ some .executing := fun a executing => Bool.false_ne_true (one.marks.mpr ⟨a,executing⟩)
    have only : ∀ a,Function.update copies who (some .executing) a = some .executing → a = who := by
      intro a executing
      by_contra other
      rw [Function.update_of_ne other] at executing
      exact nobody a executing
    exact ⟨fun a b left right => (only a left).trans (only b right).symm,⟨fun _ => ⟨who,Function.update_self ..⟩,fun _ => rfl⟩,fun _ _ => rfl⟩

end Copies

section Run
variable {env : Env} {m : Machine Office Hook}

structure Replayed (env : Env) (k : Nat × String) (m : Machine Office Hook) : Prop where
  clear : ∀ (who : Nat) hook,m.workers[who]? = some hook → hook.Clear env k
  one : OneExecutes (m.shared.taken (some k)) (copyAt k m)

theorem arrive_replayed (replayed : Replayed env k m) {request : Request} (clear : (Hook.arrived request).Clear env k) :
    Replayed env k ((webhookOffice env).advance m (.arrive request)) := by
  have copies : copyAt k ((webhookOffice env).advance m (.arrive request)) = copyAt k m := by
    funext who
    unfold copyAt
    rw [look_arrive]
    split
    · rename_i last
      rw [last,List.getElem?_eq_none (Nat.le_refl _)]
      rfl
    · rfl
  refine ⟨fun who hook here => ?_,by rw [copies]; exact replayed.one⟩
  rw [look_arrive] at here
  split at here
  · cases here
    exact clear
  · exact replayed.clear who hook here
theorem step_replayed (named : k.2 ≠ "") (replayed : Replayed env k m) {who : Nat} {fate : Fate}
    (unbroken : ∀ hook,m.workers[who]? = some hook → hook.Unbroken k m.shared fate) :
    Replayed env k ((webhookOffice env).advance m (.step who fate)) := by
  cases here : m.workers[who]? with
  | none => rw [idle_step here]; exact replayed
  | some hook =>
    have clear := replayed.clear who hook here
    have stands : copyAt k m who = hook.copy k := by simp only [copyAt,here,Option.bind_some]
    have copies : copyAt k ((webhookOffice env).advance m (.step who fate)) =
        Function.update (copyAt k m) who ((nextStatement env fate m.shared hook).2.copy k) := by
      funext other
      unfold copyAt
      rw [look_step here]
      by_cases same : other = who
      · subst same
        rw [if_pos rfl,Function.update_self]
        rfl
      · rw [if_neg same,Function.update_of_ne same]
    have moves := next_moves env named clear (unbroken hook here)
    rw [← stands] at moves
    refine ⟨fun other idle there => ?_,?_⟩
    · rw [look_step here] at there
      split at there
      · cases there
        exact next_clear clear
      · exact replayed.clear other idle there
    · rw [copies,shared_step here]
      exact moves_one replayed.one moves
theorem advance_replayed (named : k.2 ≠ "") {turn : Turn Request Fate Nat} (replayed : Replayed env k m) (met : Unbroken env k m turn) :
    Replayed env k ((webhookOffice env).advance m turn) := by
  cases turn with
  | arrive request => exact arrive_replayed replayed met
  | step who fate => exact step_replayed named replayed met
  | world ms => exact ⟨replayed.clear,replayed.one⟩

theorem replayed_once (replayed : Replayed env k m) : AppliedOnce k m := by
  obtain ⟨once,marks,repeats⟩ := replayed.one
  refine ⟨once,fun a b hook phase executing apart here answered copies => ?_,fun b copied => marks.mp (repeats b copied)⟩
  have stands : copyAt k m b = some phase := by simp only [copyAt,here,Option.bind_some,copies]
  obtain rfl | copied := answered_copy answered copies
  · exact absurd (once b a stands executing) apart
  · exact copied

end Run

theorem carries_named (carries : Carries env request k) : k.2 ≠ "" := by
  obtain ⟨delivery,-,named⟩ := Option.bind_eq_some_iff.mp carries
  obtain ⟨id,present,rfl⟩ := Option.map_eq_some_iff.mp named
  rintro rfl
  simp [truthy,Option.filter_eq_some_iff] at present

-- In every run without such a break, from an office that has not seen the delivery, it is applied
-- once in every state that is reached.
theorem delivery_applied_once (env : Env) {request : Request} (genuine : Carries env request k) {g : Office} (unseen : g.taken (some k) = false)
    {turns : List (Turn Request Fate Nat)} (meets : Runs.Meets (webhookOffice env).advance (Unbroken env k) ⟨g,[]⟩ turns) :
    ∀ front,front <+: turns → AppliedOnce k ((webhookOffice env).run g front) := by
  intro front reached
  have start : Replayed env k ⟨g,[]⟩ := by
    refine ⟨fun who hook here => by simp at here,⟨fun a b left _ => by simp [copyAt] at left,?_,fun b copied => by simp [copyAt] at copied⟩⟩
    rw [unseen]
    exact ⟨fun marked => absurd marked Bool.false_ne_true,fun ⟨a,executing⟩ => by simp [copyAt] at executing⟩
  exact replayed_once (Runs.run_keeps_reached (fun _ _ replayed met => advance_replayed (carries_named genuine) replayed met) start meets reached)

-- Two copies that both pass the check before either has logged the delivery are both executed; and
-- after a process has died between the log insert and the update the next copy is a duplicate of
-- nothing.
def delivered : Request := callback [1] "d-1"
def bothCheck : List (Turn Request Fate Nat) :=
  [.arrive delivered,.arrive delivered,.step 0 .goes,.step 1 .goes,.step 0 .goes,.step 1 .goes,.step 0 .goes,.step 1 .goes]
def diesAfterLog : List (Turn Request Fate Nat) :=
  [.arrive delivered,.step 0 .goes,.step 0 .goes,.step 0 .goes,.step 0 .dies,.arrive delivered,.step 1 .goes,.step 1 .goes]
theorem delivered_carries : Carries cargoEnv delivered (4,"d-1") := by
  have named : (authenticate cargoEnv delivered).delivery.bind Delivery.key = some (4,"d-1") := by decide
  exact named
theorem delivery_twice_or_never :
    Carries cargoEnv delivered (4,"d-1") ∧
    ¬ AppliedOnce (4,"d-1") ((webhookOffice cargoEnv).run (cargoOffice emptyDepot) bothCheck) ∧
    ¬ AppliedOnce (4,"d-1") ((webhookOffice cargoEnv).run (cargoOffice emptyDepot) diesAfterLog) := by
  refine ⟨delivered_carries,fun applied => ?_,fun applied => ?_⟩
  · have both : copyAt (4,"d-1") ((webhookOffice cargoEnv).run (cargoOffice emptyDepot) bothCheck) 0 = some .executing ∧
        copyAt (4,"d-1") ((webhookOffice cargoEnv).run (cargoOffice emptyDepot) bothCheck) 1 = some .executing := by decide
    exact absurd (applied.once 0 1 both.1 both.2) Nat.zero_ne_one
  · have copies : ((webhookOffice cargoEnv).run (cargoOffice emptyDepot) diesAfterLog).workers.map (Hook.copy (4,"d-1")) =
        [none,some .duplicate] := by decide
    obtain ⟨a,executing⟩ := applied.neverLost 1 (by decide)
    obtain ⟨hook,here,stands⟩ := Option.bind_eq_some_iff.mp executing
    have listed := List.mem_map_of_mem (f:=Hook.copy (4,"d-1")) (List.mem_of_getElem? here)
    rw [copies,stands] at listed
    simp at listed

-- A copy that comes while the first one is at work on the shipment.
def copyWaits : List (Turn Request Fate Nat) :=
  [.arrive delivered,.step 0 .goes,.step 0 .goes,.arrive delivered,.step 0 .goes,.step 0 .goes,.step 1 .goes,.step 1 .goes,.world 7,
    .step 0 .goes,.step 0 .goes,.step 0 .fails,.step 0 .goes,.step 0 .goes]
theorem delivery_applied_once_of_two : AppliedOnce (4,"d-1") ((webhookOffice cargoEnv).run (cargoOffice emptyDepot) copyWaits) :=
  delivery_applied_once cargoEnv delivered_carries rfl (by decide) copyWaits (List.prefix_refl _)

end Elchi.Webhooks
