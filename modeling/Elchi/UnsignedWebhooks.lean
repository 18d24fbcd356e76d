import Elchi.WebhookIsolation
namespace Elchi.Webhooks
open RowLock hiding Machine Turn
open Interleaving Batches

-- A request, when it comes and how its statements end; what it is answered, but for the log row.
structure WebhookCall where
  request : Request
  now : Nat
  fates : List Fate
def handle (env : Env) (g : Office) (call : WebhookCall) : Office × Hook :=
  ((receiveWebhook env call.request call.fates {g with now:=call.now}).1,
    (receiveWebhook env call.request call.fates {g with now:=call.now}).2.withLog none)

def Unsigned (env : Env) (request : Request) : Prop := (authenticate env request).delivery.isNone = true
instance (env : Env) (request : Request) : Decidable (Unsigned env request) :=
  inferInstanceAs (Decidable ((authenticate env request).delivery.isNone = true))
-- A request leaves a delivery id in the log that was not there.
def Leaves (env : Env) (g : Office) (call : WebhookCall) (key : Nat × String) : Prop :=
  g.taken (some key) = false ∧ (handle env g call).1.taken (some key) = true
def Carries (env : Env) (request : Request) (key : Nat × String) : Prop := (authenticate env request).delivery.bind Delivery.key = some key
def Harmless (env : Env) (g : Office) (call : WebhookCall) (rest : List (Bool × WebhookCall)) : Prop :=
  Unsigned env call.request ∧ ∀ later ∈ Purge.purge rest,∀ key,Carries env later.request key → ¬ Leaves env g call key

-- The calls that are not marked get the same answers, and shipments, orders and receivables end
-- the same, as if the marked ones had not been made.
structure Undisturbed (env : Env) (g : Office) (calls : List (Bool × WebhookCall)) : Prop where
  answers : (Purge.markedAnswers (handle env) g calls).2 = (Purge.answers (handle env) g (Purge.purge calls)).2
  shipments : (Purge.markedAnswers (handle env) g calls).1.shipments = (Purge.answers (handle env) g (Purge.purge calls)).1.shipments
  receivables : (Purge.markedAnswers (handle env) g calls).1.receivables = (Purge.answers (handle env) g (Purge.purge calls)).1.receivables
  orders : (Purge.markedAnswers (handle env) g calls).1.depot = (Purge.answers (handle env) g (Purge.purge calls)).1.depot

-- Without a valid signature a request touches nothing but the log and the clock.
def Hook.Outside (env : Env) : Hook → Prop
  | .arrived request => Unsigned env request
  | .rejecting _ _ _ | .refused _ _ | .failed | .dead _ => True
  | _ => False
theorem outside_next (env : Env) (fate : Fate) (g : Office) {hook : Hook} (outside : hook.Outside env) :
    (nextStatement env fate g hook).1.besides = g.besides ∧ (nextStatement env fate g hook).2.Outside env := by
  unfold nextStatement
  split
  · exact ⟨rfl,outside⟩
  cases hook with
  | arrived request =>
    have goes : ((Hook.arrived request).go env g).1 = g ∧ ((Hook.arrived request).go env g).2.Outside env := by
      simp only [Hook.go]
      split
      · exact ⟨rfl,trivial⟩
      · exact ⟨rfl,trivial⟩
      · rename_i delivery verified
        have none : (authenticate env request).delivery.isNone = true := outside
        rw [verified] at none
        cases none
    cases fate with
    | goes => exact ⟨congrArg Office.besides goes.1,goes.2⟩
    | fails => exact ⟨rfl,trivial⟩
    | lost => exact ⟨congrArg Office.besides goes.1,trivial⟩
    | dies => exact ⟨rfl,trivial⟩
  | rejecting log code reason =>
    cases fate with
    | goes => exact ⟨insertLog_besides g log,trivial⟩
    | fails => exact ⟨rfl,trivial⟩
    | lost => exact ⟨insertLog_besides g log,trivial⟩
    | dies => exact ⟨rfl,trivial⟩
  | refused _ _ | failed | dead _ => rename_i unanswered; exact absurd rfl unanswered
  | _ => exact outside.elim
theorem unsigned_besides (env : Env) {request : Request} (unsigned : Unsigned env request) (fates : List Fate) (g : Office) :
    (receiveWebhook env request fates g).1.besides = g.besides := by
  have general : ∀ (fates : List Fate) (g : Office) (hook : Hook),hook.Outside env →
      (fates.foldl (fun reached fate => nextStatement env fate reached.1 reached.2) (g,hook)).1.besides = g.besides := by
    intro fates
    induction fates with
    | nil => exact fun g hook outside => rfl
    | cons fate rest ih =>
      intro g hook outside
      obtain ⟨kept,stays⟩ := outside_next env fate g outside
      exact (ih _ _ stays).trans kept
  exact general fates g _ unsigned

-- The log never loses a delivery.
theorem taken_next (env : Env) (fate : Fate) {g : Office} {hook : Hook} (taken : g.taken (some key) = true) :
    (nextStatement env fate g hook).1.taken (some key) = true := by
  have goes : (hook.go env g).1.taken (some key) = true := by rw [taken_go,taken,Bool.true_or]
  unfold nextStatement
  split
  · exact taken
  · cases fate with
    | goes => exact goes
    | fails => exact taken
    | lost => exact goes
    | dies => exact taken
theorem taken_stays (env : Env) (g : Office) (call : WebhookCall) (taken : g.taken (some key) = true) : (handle env g call).1.taken (some key) = true := by
  have general : ∀ (fates : List Fate) (reached : Office × Hook),reached.1.taken (some key) = true →
      (fates.foldl (fun reached fate => nextStatement env fate reached.1 reached.2) reached).1.taken (some key) = true := by
    intro fates
    induction fates with
    | nil => exact fun reached taken => taken
    | cons fate rest ih => exact fun reached taken => ih _ (taken_next env fate taken)
  exact general call.fates _ taken

-- The offices with and without the marked calls agree, the clock apart, and on the deliveries of
-- the calls still to come.
def Apart (env : Env) (rest : List (Bool × WebhookCall)) (g' g : Office) : Prop :=
  Agree (fun key => ∃ later ∈ Purge.purge rest,Carries env later.request key) {g' with now:=g.now} g

theorem apart_besides {g' g : Office} (same : g'.besides.2 = g.besides.2) (now : Nat) :
    ({g' with now:=now} : Office).besides = ({g with now:=now} : Office).besides := congrArg (Prod.mk now) same

theorem apart_same {env : Env} {rest : List (Bool × WebhookCall)} {g' g : Office} (apart : Apart env rest g' g) : g'.besides.2 = g.besides.2 := by
  have same := congrArg Prod.snd apart.same
  exact same
theorem apart_common (env : Env) {g' g : Office} {call : WebhookCall} {rest : List (Bool × WebhookCall)}
    (apart : Apart env ((false,call) :: rest) g' g) :
    (handle env g' call).2 = (handle env g call).2 ∧ Apart env rest (handle env g' call).1 (handle env g call).1 := by
  obtain ⟨same,after⟩ := receive_agrees env call.request call.fates (agree_with apart (apart_besides (apart_same apart) call.now) rfl rfl)
    (fun key carries => ⟨call,List.mem_cons_self,carries⟩)
  exact ⟨same,apart_besides (congrArg Prod.snd after.same) (handle env g call).1.now,
    fun key ⟨later,member,carries⟩ => after.taken key ⟨later,.tail _ member,carries⟩⟩
theorem apart_extra (env : Env) {g' g : Office} {call : WebhookCall} {rest : List (Bool × WebhookCall)}
    (apart : Apart env ((true,call) :: rest) g' g) (harmless : Harmless env g' call rest) : Apart env rest (handle env g' call).1 g := by
  obtain ⟨unsigned,none⟩ := harmless
  have kept := unsigned_besides env unsigned call.fates {g' with now:=call.now}
  have besides : (handle env g' call).1.besides.2 = g.besides.2 := (congrArg Prod.snd kept).trans (apart_same apart)
  refine ⟨apart_besides besides g.now,fun key ⟨later,member,carries⟩ => ?_⟩
  have before : g'.taken (some key) = g.taken (some key) := apart.taken key ⟨later,member,carries⟩
  have after : (handle env g' call).1.taken (some key) = g'.taken (some key) := by
    cases free : g'.taken (some key) with
    | true => exact taken_stays env g' call free
    | false => exact Bool.eq_false_iff.mpr fun left => none later member key carries ⟨free,left⟩
  exact after.trans before

theorem harmless_undisturbed (env : Env) (g : Office) (calls : List (Bool × WebhookCall))
    (harmless : Purge.AllHarmless (handle env) (Harmless env) g calls) : Undisturbed env g calls := by
  have start : Apart env calls g g := ⟨rfl,fun key inside => rfl⟩
  obtain ⟨same,final⟩ := Purge.purged (handle env) (Harmless env) (Apart env) (fun _ _ _ _ apart => apart_common env apart)
    (fun _ _ _ _ apart harmless => apart_extra env apart harmless) start harmless
  obtain ⟨-,shipments,receivables,-,depot⟩ := agree_parts final
  exact ⟨same,shipments,receivables,depot⟩

theorem delivery_verified {env : Env} (known : (authenticate env request).delivery = some delivery) :
    authenticate env request = .verified delivery := by
  cases found : authenticate env request with
  | verified other => rw [found] at known; cases known; rfl
  | thrown => rw [found] at known; cases known
  | rejected _ _ _ => rw [found] at known; cases known
-- A genuine delivery that finds its id in the log is answered as a duplicate.
theorem genuine_checked (env : Env) (g : Office) (now : Nat) (carries : Carries env request key) :
    ∃ delivery,(handle env g ⟨request,now,[.goes,.goes]⟩).2 =
      if g.taken (some key) then .duplicate delivery else .logging delivery := by
  obtain ⟨delivery,known,named⟩ := Option.bind_eq_some_iff.mp carries
  have verified := delivery_verified known
  refine ⟨delivery,?_⟩
  have first : nextStatement env .goes {g with now:=now} (.arrived request) = ({g with now:=now},.checking delivery) := by
    simp [nextStatement,Hook.answered,Hook.go,verified,named]
  have second : nextStatement env .goes {g with now:=now} (.checking delivery) =
      ({g with now:=now},if g.taken (some key) then .duplicate delivery else .logging delivery) := by
    simp only [nextStatement,Hook.answered,Bool.false_eq_true,if_false,Hook.go,named]
    rw [show ({g with now:=now} : Office).taken (some key) = g.taken (some key) from rfl]
    split
    · rfl
    · rfl
  simp only [handle,receiveWebhook,List.foldl_cons,List.foldl_nil,first,second]
  split
  · rfl
  · rfl

-- Requests without a valid signature go unnoticed in every run in which none of them leaves a
-- delivery id in the log that a later genuine request carries; and one of them goes unnoticed
-- whatever comes after it exactly when it leaves no id a genuine request carries.
theorem unsigned_unnoticed (env : Env) :
    (∀ (g : Office) (calls : List (Bool × WebhookCall)),Purge.AllHarmless (handle env) (Harmless env) g calls → Undisturbed env g calls) ∧
    ∀ (g : Office) (call : WebhookCall),Unsigned env call.request →
      ((∀ rest : List WebhookCall,Undisturbed env g ((true,call) :: rest.map fun later => (false,later))) ↔
        ∀ request key,Carries env request key → ¬ Leaves env g call key) := by
  refine ⟨harmless_undisturbed env,fun g call unsigned => ⟨fun undisturbed request key carries leaves => ?_,fun none rest => ?_⟩⟩
  · have same := (undisturbed [⟨request,0,[.goes,.goes]⟩]).answers
    obtain ⟨delivery,after⟩ := genuine_checked env (handle env g call).1 0 carries
    obtain ⟨other,before⟩ := genuine_checked env g 0 carries
    rw [leaves.2,if_pos rfl] at after
    rw [leaves.1,if_neg Bool.false_ne_true] at before
    simp only [List.map_cons,List.map_nil,Purge.markedAnswers,Purge.purge,List.filterMap_cons,List.filterMap_nil,Purge.answers,if_true,
      Bool.false_eq_true,if_false,after,before] at same
    cases same
  · apply harmless_undisturbed
    refine ⟨⟨unsigned,fun later member key carries => none later.request key carries⟩,?_⟩
    have unmarked : ∀ (rest : List WebhookCall) (g : Office),
        Purge.AllHarmless (handle env) (Harmless env) g (rest.map fun later => (false,later)) := by
      intro rest
      induction rest with
      | nil => exact fun g => trivial
      | cons later rest ih => exact fun g => ih _
    exact unmarked rest _

-- A request nobody signed claims the delivery id of the next callback: that one is taken for a
-- duplicate and the shipment never learns of it.
def allGo : List Fate := List.replicate 10 .goes
theorem forged_suppresses :
    Unsigned cargoEnv (forged "d-1") ∧
    ¬ Undisturbed cargoEnv (cargoOffice emptyDepot) [(true,⟨forged "d-1",5,allGo⟩),(false,⟨callback [1] "d-1",9,allGo⟩)] := by
  refine ⟨by decide,fun undisturbed => absurd undisturbed.shipments ?_⟩
  decide

-- One that claims an id no callback uses is not noticed.
theorem unsigned_unnoticed_other_id :
    Undisturbed cargoEnv (cargoOffice emptyDepot) [(true,⟨forged "d-0",5,allGo⟩),(false,⟨callback [1] "d-1",9,allGo⟩)] := by
  apply (unsigned_unnoticed cargoEnv).1
  refine ⟨⟨by decide,fun later member key carries leaves => ?_⟩,trivial⟩
  obtain rfl : later = ⟨callback [1] "d-1",9,allGo⟩ := List.mem_singleton.mp member
  have named : (authenticate cargoEnv (callback [1] "d-1")).delivery.bind Delivery.key = some (4,"d-1") := by decide
  obtain rfl : (4,"d-1") = key := Option.some_inj.mp (named.symm.trans carries)
  have absent : (handle cargoEnv (cargoOffice emptyDepot) ⟨forged "d-0",5,allGo⟩).1.taken (some (4,"d-1")) = false := by decide
  rw [leaves.2] at absent
  cases absent

end Elchi.Webhooks
