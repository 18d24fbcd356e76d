import Elchi.PartnerMarketSafety
import Mathlib.Data.List.Nodup
namespace Elchi.Partners
open Interleaving

-- The market that a call takes on to its binding.
def carried (g : Registry) : CallStage → Option (Pair × Nat)
  | .awaiting pair index => ((g.jobs[index]?).bind Job.holds).map fun id => (pair,id)
  | .saving pair market => some (pair,market)
  | _ => none
-- The username of a request is that of a market created for another pair.
def claimed (g : Registry) (job : Job) : Bool :=
  g.users.any fun user => user.username == some job.dto.username && user.madeFor.any (· != job.pair)

-- Some way of going on answers a call for the pair that is made now with its market.
def Provisionable (m : PartnerRun) (pair : Pair) : Prop :=
  ∃ dto later market idempotent,
    (Runs.runFrom partnerMarkets.advance m (.arrive dto :: later)).workers[m.workers.length]? = some ⟨dto,.done pair market idempotent⟩
structure Provisioned (m : PartnerRun) : Prop where
  bound : ∀ call ∈ m.workers,∀ pair market idempotent,call.stage = .done pair market idempotent →
    (m.shared.refs.filter fun ref => ref.pair == pair) = [⟨pair,market,false⟩]
  apart : ∀ one ∈ m.workers,∀ other ∈ m.workers,∀ pair market idempotent pair' market' idempotent',
    one.stage = .done pair market idempotent → other.stage = .done pair' market' idempotent' → (pair = pair' ↔ market = market')
  unclaimed : ∀ job ∈ m.shared.jobs,∀ refusal,job.reply = some (.refused refusal) → refusal.forUsername = true → claimed m.shared job = false
  recoverable : ∀ user ∈ m.shared.users,∀ pair,user.madeFor = some pair → m.shared.existing pair = none → Provisionable m pair

-- What must not happen while a pair has no binding: a call that waits for a created market gives up
-- or stops, or its save is not made; a market is created for a call that no longer waits, or its
-- creation reports an error, or the cashbox does. And no username that createMarket finds taken is
-- that of a market of another pair.
def CallStage.binds (g : Registry) (fate : Fate) (stage : CallStage) : Prop :=
  match stage with
  | .awaiting pair _ => (carried g stage).isSome = true → g.existing pair = none → fate = .goes
  | .saving pair _ => g.existing pair = none → fate.writes = true
  | _ => True
def waits (m : PartnerRun) (index : Nat) (job : Job) : Bool :=
  job.reply.isNone && (m.workers[job.replyTo]?).any fun call => call.stage == .awaiting job.pair index
def Job.binds (m : PartnerRun) (index : Nat) (fate : Fate) (job : Job) : Prop :=
  match job.stage with
  | .username => job.reply = none → fate = .goes → claimed m.shared job = false
  | .inserting =>
    (job.reply = none → fate = .goes → fits job.dto = true → claimed m.shared job = false) ∧
    (insertRefusal m.shared.users job.dto = none → fate.writes = true → fate = .goes ∧ waits m index job = true)
  | .cashbox _ => job.reply = none → m.shared.existing job.pair = none → fate = .goes
  | _ => True
def Binds (m : PartnerRun) : PartnerTurn → Prop
  | .arrive _ => True
  | .step who fate => ∀ call : Call,m.workers[who]? = some call → call.stage.binds m.shared fate
  | .world event => ∀ job : Job,m.shared.jobs[event.job]? = some job → job.binds m event.job event.fate


variable {g g' : Registry} {m : PartnerRun} {pair : Pair} {id who other : Nat} {fate : Fate} {call idle : Call}

theorem call_at (stands : At who g call) (fate : Fate) :
    At who (provisionPartnerMarket who fate g call).1 (provisionPartnerMarket who fate g call).2 := by
  have moved := progress_at (call_progress who fate g call) stands
  rw [← call_dto who fate g call] at moved
  exact moved
theorem start_at (dto : MarketRequest) : At who g dto.call := by
  have same : dto.call.dto = dto := by
    unfold MarketRequest.call
    split <;> rfl
  cases starts : dto.call.stage with
  | looking pair =>
    simp only [At,starts,same]
  | refused error =>
    simp only [At,starts]
  | failed =>
    simp only [At,starts]
  | _ =>
    unfold MarketRequest.call at starts
    split at starts <;> cases starts
theorem partner_keeps : partnerMarkets.Keeps (fun _ _ => True) (fun _ => Sound) At where
  arrive m request holds _ := ⟨holds.1,start_at request⟩
  own m who fate call holds _ here :=
    ⟨progress_sound holds.1 (call_progress who fate m.shared call) (holds.2 who call here),call_at (holds.2 who call here) fate⟩
  others m who fate call other idle holds _ _ _ there :=
    at_grows (progress_grows (call_progress who fate m.shared call)) (holds.2 other idle there)
  world m event holds _ := by
    obtain ⟨-,same⟩ | ⟨job,there,works⟩ := work_cases m.shared event.job event.fate
    · rw [show partnerMarkets.world event m.shared = m.shared from same]
      exact holds
    · rw [show partnerMarkets.world event m.shared = _ from works]
      have handles := next_handles m.shared.users m.shared.nextUserId event.fate job
      exact ⟨handles_sound holds.1 there handles,fun who call here => at_grows (handles_grows there handles) (holds.2 who call here)⟩
abbrev Standing (m : PartnerRun) : Prop := m.Holds (fun _ => Sound) At
theorem standing_advance (standing : Standing m) (turn : PartnerTurn) : Standing (partnerMarkets.advance m turn) :=
  advance_holds partner_keeps standing trivial

section Carriers

-- A carried market is held by a message of the call that carries it, and by no other message.
theorem carried_held (stands : At who g call) (carries : carried g call.stage = some (pair,id)) :
    ∃ (index : Nat) (job : Job),g.jobs[index]? = some job ∧ job.replyTo = who ∧ job.pair = pair ∧ job.holds = some id := by
  obtain ⟨dto,stage⟩ := call
  cases stage with
  | awaiting pair index =>
    obtain ⟨-,job,here,mine,same⟩ := stands
    simp only [carried,here,Option.bind_some,Option.map_eq_some_iff,Prod.mk.injEq] at carries
    obtain ⟨id,held,rfl,rfl⟩ := carries
    exact ⟨index,job,here,mine,same,held⟩
  | saving pair market =>
    obtain ⟨-,index,job,here,mine,same,answered⟩ := stands
    cases carries
    exact ⟨index,job,here,mine,same,answered_holds answered⟩
  | _ => cases carries
theorem carriers_same (standing : Standing m) (here : m.workers[who]? = some call) (there : m.workers[other]? = some idle)
    (carries : carried m.shared call.stage = some (pair,id)) (carries' : carried m.shared idle.stage = some (pair',id)) : who = other := by
  obtain ⟨index,job,sent,rfl,-,held⟩ := carried_held (standing.2 who call here) carries
  obtain ⟨index',job',sent',rfl,-,held'⟩ := carried_held (standing.2 other idle there) carries'
  cases standing.1.held index index' id job job' sent sent' held held'
  cases sent.symm.trans sent'
  rfl
theorem carried_made (sound : Sound g) (stands : At who g call) (carries : carried g call.stage = some (pair,id)) :
    ∃ user ∈ g.users,user.id = id ∧ user.madeFor = some pair := by
  obtain ⟨index,job,sent,-,rfl,held⟩ := carried_held stands carries
  exact sound.holder job (List.mem_of_getElem? sent) id held
theorem made_once (sound : Sound g) {one two : User} (first : one ∈ g.users) (second : two ∈ g.users) (left : one.madeFor = some pair)
    (right : two.madeFor = some pair) : one = two :=
  sound.names one first two second _ (sound.made one first pair left).1 (sound.made two second pair right).1

-- What the statements of one call do to what it and the others carry.
theorem progress_others {dto : MarketRequest} {stage next : CallStage} (progress : Progress who g dto fate stage g' next)
    (stands : At other g idle) : carried g' idle.stage = carried g idle.stage := by
  cases progress with
  | asks _ =>
    obtain ⟨dto,stage⟩ := idle
    cases stage with
    | awaiting pair index =>
      obtain ⟨-,job,here,-,-⟩ := stands
      simp only [carried,List.getElem?_append_left (List.getElem?_eq_some_iff.mp here).1]
    | _ => rfl
  | binds _ _ _ =>
    obtain ⟨dto,stage⟩ := idle
    cases stage <;> rfl
  | _ => rfl
theorem carrying_none {stage : CallStage} (empty : stage.carrying = false) (g : Registry) : carried g stage = none := by
  cases stage with
  | awaiting _ _ => cases empty
  | saving _ _ => cases empty
  | _ => rfl
theorem answered_carrying {stage : CallStage} (answered : stage.answered = true) : stage.carrying = false := by
  cases stage with
  | awaiting _ _ => cases answered
  | saving _ _ => cases answered
  | _ => rfl
theorem progress_carries {dto : MarketRequest} {stage next : CallStage} (progress : Progress who g dto fate stage g' next)
    (carries : carried g' next = some (pair,id)) : carried g stage = some (pair,id) := by
  cases progress with
  | ends _ after _ =>
    rw [carrying_none (answered_carrying after)] at carries
    cases carries
  | asks after =>
    obtain rfl | ⟨empty,-,-⟩ := after
    · rw [carried,List.getElem?_concat_length] at carries
      cases carries
    · rw [carrying_none empty] at carries
      cases carries
  | stays => exact carries
  | receives sent answered =>
    cases carries
    simp only [carried,sent,Option.bind_some,answered_holds answered,Option.map_some]
  | misses => cases carries
  | refused _ _ => cases carries
  | leaves _ after =>
    obtain rfl | rfl := after <;> cases carries
  | binds _ _ after =>
    obtain rfl | rfl := after <;> cases carries
  | drops _ after =>
    obtain rfl | rfl := after <;> cases carries
-- And the statements of a handler.
theorem work_carries (stands : At who g call) {index : Nat} (carries : carried (g.work index fate) call.stage = some (pair,id)) :
    carried g call.stage = some (pair,id) ∨
    ∃ job,g.jobs[index]? = some job ∧ call.stage = .awaiting pair index ∧ id = g.nextUserId ∧ insertRefusal g.users job.dto = none := by
  obtain ⟨-,same⟩ | ⟨job,there,works⟩ := work_cases g index fate
  · rw [same] at carries
    exact .inl carries
  · have handles := next_handles g.users g.nextUserId fate job
    rw [works] at carries
    obtain ⟨dto,stage⟩ := call
    cases stage with
    | awaiting pair place =>
      obtain ⟨-,job',here,-,-⟩ := stands
      simp only [carried,set_job there] at carries ⊢
      split at carries
      · rename_i same
        subst same
        cases here.symm.trans there
        simp only [Option.bind_some,Option.map_eq_some_iff,Prod.mk.injEq] at carries
        obtain ⟨id,held,rfl,rfl⟩ := carries
        obtain before | ⟨added,rfl⟩ := handles.holds id held
        · exact .inl (by simp [here,before])
        · obtain none | ⟨-,free⟩ := handles.adds
          · rw [none] at added
            cases added
          · exact .inr ⟨job,here,rfl,rfl,free⟩
      · exact .inl carries
    | _ => exact .inl carries

end Carriers

-- Every market of a pair without a binding is carried by a call, and no refusal is due to a market
-- of another pair.
def Carried (m : PartnerRun) : Prop :=
  ∀ user ∈ m.shared.users,∀ pair,user.madeFor = some pair → m.shared.existing pair = none →
    ∃ (who : Nat) (call : Call),m.workers[who]? = some call ∧ carried m.shared call.stage = some (pair,user.id)
def Unclaimed (g : Registry) : Prop :=
  ∀ job ∈ g.jobs,∀ refusal,job.reply = some (.refused refusal) → refusal.forUsername = true → claimed g job = false
def Good (m : PartnerRun) : Prop := Carried m ∧ Unclaimed m.shared

section Stranded

-- A market nothing carries: its username is taken, so no call for its pair gets another one.
structure Stranded (m : PartnerRun) (pair : Pair) : Prop where
  unbound : m.shared.existing pair = none
  made : ∃ user ∈ m.shared.users,user.madeFor = some pair
  nobody : ∀ (who : Nat) (call : Call) (id : Nat),m.workers[who]? = some call → carried m.shared call.stage ≠ some (pair,id)

theorem work_refs (g : Registry) (index : Nat) (fate : Fate) : (g.work index fate).refs = g.refs := by
  unfold Registry.work
  split <;> rfl
theorem work_grows (g : Registry) (index : Nat) (fate : Fate) : Grows g (g.work index fate) := by
  obtain ⟨-,same⟩ | ⟨job,there,works⟩ := work_cases g index fate
  · rw [same]
    exact grows_same g
  · rw [works]
    exact handles_grows there (next_handles g.users g.nextUserId fate job)
theorem work_unbound (g : Registry) (index : Nat) (fate : Fate) (pair : Pair) : (g.work index fate).existing pair = g.existing pair := by
  unfold Registry.existing
  rw [work_refs]
theorem made_inserted (sound : Sound g) {job : Job} (listed : job ∈ g.jobs) {user : User} (member : user ∈ g.users)
    (made : user.madeFor = some job.pair) : insertRefusal g.users job.dto ≠ none := by
  intro free
  have name := (sound.made user member job.pair made).1
  rw [← sound.derived job listed] at name
  exact unused_name (inserted_unused free).2 user member name
theorem progress_unbound {dto : MarketRequest} {stage next : CallStage} (progress : Progress who g dto fate stage g' next)
    (unbound : g.existing pair = none) : g'.existing pair = none ∨ ∃ market,stage = .saving pair market := by
  cases progress with
  | binds _ _ _ =>
    rename_i saved _ _ _ _
    by_cases same : saved = pair
    · exact .inr ⟨_,by rw [same]⟩
    · refine .inl ?_
      unfold Registry.existing at unbound ⊢
      rw [List.find?_append,unbound]
      simp [same]
  | _ => exact .inl unbound
theorem start_carries (g : Registry) (dto : MarketRequest) : carried g dto.call.stage = none := by
  unfold MarketRequest.call
  split <;> rfl
theorem stranded_step (standing : Standing m) (stranded : Stranded m pair) (turn : PartnerTurn) :
    Stranded (partnerMarkets.advance m turn) pair := by
  obtain ⟨unbound,⟨user,member,made⟩,nobody⟩ := stranded
  cases turn with
  | arrive dto =>
    refine ⟨unbound,⟨user,member,made⟩,fun who call id here => ?_⟩
    rw [look_arrive] at here
    split at here
    · cases here
      intro carries
      cases (start_carries _ dto).symm.trans carries
    · exact nobody who call id here
  | step who fate =>
    cases here : m.workers[who]? with
    | none =>
      rw [idle_step here]
      exact ⟨unbound,⟨user,member,made⟩,nobody⟩
    | some call =>
      have progress := call_progress who fate m.shared call
      have after : (partnerMarkets.advance m (.step who fate)).shared = (provisionPartnerMarket who fate m.shared call).1 :=
        shared_step here fate
      refine ⟨?_,⟨user,?_,made⟩,fun other idle id there => ?_⟩
      · rw [after]
        obtain still | ⟨market,saving⟩ := progress_unbound progress unbound
        · exact still
        · exact absurd (by rw [saving]; rfl) (nobody who call market here)
      · rw [after]
        exact (progress_grows progress).users user member
      · rw [after]
        rw [look_step here] at there
        split at there
        · cases there
          exact fun carries => nobody who call id here (progress_carries progress carries)
        · rw [progress_others progress (standing.2 other idle there)]
          exact nobody other idle id there
  | world event =>
    refine ⟨(work_unbound m.shared event.job event.fate pair).trans unbound,⟨user,(work_grows m.shared event.job event.fate).users user member,made⟩,
      fun who call id here carries => ?_⟩
    obtain before | ⟨job,there,awaits,-,free⟩ := work_carries (standing.2 who call here) carries
    · exact nobody who call id here before
    · have stands := standing.2 who call here
      obtain ⟨dto,stage⟩ := call
      cases awaits
      obtain ⟨-,job',here',-,same⟩ := stands
      cases there.symm.trans here'
      exact made_inserted standing.1 (List.mem_of_getElem? there) member (by rw [made,same]) free
-- No call for a stranded pair is ever answered with a market.
theorem stranded_never (standing : Standing m) (stranded : Stranded m pair) : ¬ Provisionable m pair := by
  rintro ⟨dto,later,market,idempotent,answered⟩
  have kept : ∀ (m : PartnerRun) (turn : PartnerTurn),Standing m ∧ Stranded m pair → True →
      Standing (partnerMarkets.advance m turn) ∧ Stranded (partnerMarkets.advance m turn) pair :=
    fun m turn both _ => ⟨standing_advance both.1 turn,stranded_step both.1 both.2 turn⟩
  have any : Runs.Meets partnerMarkets.advance (fun _ _ => True) m (.arrive dto :: later) :=
    Runs.meets_mem (P:=fun _ => True) fun _ _ => trivial
  obtain ⟨still,lost⟩ := Runs.run_keeps kept ⟨standing,stranded⟩ any
  obtain ⟨ref,member,same,-⟩ := still.2 _ _ answered
  exact (unbound_refs still.1).mp lost.unbound ref member same
theorem uncarried_stranded (standing : Standing m) {user : User} (member : user ∈ m.shared.users) (made : user.madeFor = some pair)
    (unbound : m.shared.existing pair = none)
    (nobody : ¬ ∃ (who : Nat) (call : Call),m.workers[who]? = some call ∧ carried m.shared call.stage = some (pair,user.id)) :
    Stranded m pair := by
  refine ⟨unbound,⟨user,member,made⟩,fun who call id here carries => nobody ⟨who,call,here,?_⟩⟩
  obtain ⟨other,listed,rfl,sameFor⟩ := carried_made standing.1 (standing.2 who call here) carries
  rw [made_once standing.1 member listed made sameFor]
  exact carries

end Stranded

section Answers

-- A call for the pair that is about to look gets its market once the carried one is bound.
def Answers (m : PartnerRun) (who : Nat) (dto : MarketRequest) (pair : Pair) : Prop :=
  ∃ later market idempotent,(Runs.runFrom partnerMarkets.advance m later).workers[who]? = some ⟨dto,.done pair market idempotent⟩
variable {dto dto' : MarketRequest}

theorem answers_step (turn : PartnerTurn) (answers : Answers (partnerMarkets.advance m turn) who dto pair) : Answers m who dto pair := by
  obtain ⟨later,answered⟩ := answers
  exact ⟨turn :: later,answered⟩
theorem answers_bound {ref : PartnerMarketRef} (looks : m.workers[who]? = some ⟨dto,.looking pair⟩)
    (bound : m.shared.existing pair = some ref) : Answers m who dto pair := by
  refine ⟨[.step who .goes],ref.elchiMarketId,true,?_⟩
  change (partnerMarkets.advance m (.step who .goes)).workers[who]? = _
  rw [look_step looks]
  simp [partnerMarkets,provisionPartnerMarket,CallStage.answered,Call.go,bound]
theorem answers_saving {market : Nat} (sound : Sound m.shared) (looks : m.workers[who]? = some ⟨dto,.looking pair⟩)
    (saves : m.workers[other]? = some ⟨dto',.saving pair market⟩) : Answers m who dto pair := by
  cases free : m.shared.existing pair with
  | some ref => exact answers_bound looks free
  | none =>
    have apart : who ≠ other := fun same => by cases looks.symm.trans (same ▸ saves)
    have looks' : (partnerMarkets.advance m (.step other .goes)).workers[who]? = some ⟨dto,.looking pair⟩ := by
      rw [look_step saves,if_neg apart]
      exact looks
    have bound : (partnerMarkets.advance m (.step other .goes)).shared.existing pair = some ⟨pair,market,false⟩ := by
      have unbound : m.shared.binding pair = none := (live_existing sound pair).symm.trans free
      rw [shared_step saves]
      simp only [partnerMarkets,provisionPartnerMarket,CallStage.answered,Call.go,unbound,Option.isSome_none,Bool.false_eq_true,if_false]
      unfold Registry.existing at free ⊢
      rw [List.find?_append,free]
      simp
    exact answers_step _ (answers_bound looks' bound)
theorem answers_answered {index : Nat} {job : Job} (standing : Standing m) (looks : m.workers[who]? = some ⟨dto,.looking pair⟩)
    (awaits : m.workers[other]? = some ⟨dto',.awaiting pair index⟩) (sent : m.shared.jobs[index]? = some job)
    (answered : job.reply = some (.market id)) : Answers m who dto pair := by
  have apart : who ≠ other := fun same => by cases looks.symm.trans (same ▸ awaits)
  have looks' : (partnerMarkets.advance m (.step other .goes)).workers[who]? = some ⟨dto,.looking pair⟩ := by
    rw [look_step awaits,if_neg apart]
    exact looks
  have saves : (partnerMarkets.advance m (.step other .goes)).workers[other]? = some ⟨dto',.saving pair id⟩ := by
    rw [look_step awaits,if_pos rfl]
    simp [partnerMarkets,provisionPartnerMarket,CallStage.answered,Call.go,sent,answered]
  exact answers_step _ (answers_saving (standing_advance standing _).1 looks' saves)
theorem answers_carried (standing : Standing m) (looks : m.workers[who]? = some ⟨dto,.looking pair⟩)
    (here : m.workers[other]? = some call) (carries : carried m.shared call.stage = some (pair,id)) : Answers m who dto pair := by
  obtain ⟨dto',stage⟩ := call
  cases stage with
  | saving pair market =>
    cases carries
    exact answers_saving standing.1 looks here
  | awaiting pair index =>
    obtain ⟨-,job,sent,-,-⟩ := standing.2 other _ here
    simp only [carried,sent,Option.bind_some,Option.map_eq_some_iff,Prod.mk.injEq] at carries
    obtain ⟨id,held,rfl,rfl⟩ := carries
    cases answered : job.reply with
    | some reply =>
      cases reply with
      | market id => exact answers_answered standing looks here sent answered
      | refused _ => simp [Job.holds,answered] at held
    | none =>
      cases opens : job.stage with
      | cashbox market =>
        -- The cashbox is opened, and the call gets its answer.
        have sent' : (partnerMarkets.advance m (.world ⟨index,.goes⟩)).shared.jobs[index]? =
            some (job.next .goes m.shared.users m.shared.nextUserId).2 := by
          change (m.shared.work index .goes).jobs[index]? = _
          simp only [Registry.work,sent]
          rw [set_job sent,if_pos rfl]
        have replied : (job.next .goes m.shared.users m.shared.nextUserId).2.reply = some (.market market) := by
          simp [Job.next,opens,Job.go,Job.answer,answered]
        exact answers_step _ (answers_answered (standing_advance standing (.world ⟨index,.goes⟩)) looks here sent' replied)
      | _ => simp [Job.holds,answered,opens] at held
  | _ => cases carries
theorem carried_provisionable (standing : Standing m) (here : m.workers[who]? = some call)
    (carries : carried m.shared call.stage = some (pair,id)) : Provisionable m pair := by
  have looks : call.dto.call = ⟨call.dto,.looking pair⟩ := by
    have starts : call.dto.call.stage = .looking pair := by
      have stands := standing.2 who call here
      obtain ⟨dto,stage⟩ := call
      cases stage with
      | awaiting _ _ =>
        simp only [carried,Option.map_eq_some_iff,Prod.mk.injEq] at carries
        obtain ⟨-,-,rfl,-⟩ := carries
        exact stands.1
      | saving _ _ =>
        cases carries
        exact stands.1
      | _ => cases carries
    have same : call.dto.call.dto = call.dto := by
      unfold MarketRequest.call
      split <;> rfl
    exact congr (congrArg Call.mk same) starts
  have inside : who < m.workers.length := (List.getElem?_eq_some_iff.mp here).1
  have looks' : (partnerMarkets.advance m (.arrive call.dto)).workers[m.workers.length]? = some ⟨call.dto,.looking pair⟩ := by
    rw [look_arrive,if_pos rfl]
    exact congrArg some looks
  have here' : (partnerMarkets.advance m (.arrive call.dto)).workers[who]? = some call := by
    rw [look_arrive,if_neg (Nat.ne_of_lt inside)]
    exact here
  obtain ⟨later,market,idempotent,answered⟩ := answers_carried (standing_advance standing (.arrive call.dto)) looks' here' carries
  exact ⟨call.dto,later,market,idempotent,answered⟩

end Answers

section Good

theorem bound_once {refs : List PartnerMarketRef} {ref : PartnerMarketRef} (single : (refs.map (·.pair)).Nodup) (member : ref ∈ refs) :
    (refs.filter fun other => other.pair == ref.pair) = [ref] := by
  induction refs with
  | nil => cases member
  | cons first rest ih =>
    obtain ⟨absent,distinct⟩ := List.nodup_cons.mp single
    rcases List.mem_cons.mp member with rfl | later
    · rw [List.filter_cons_of_pos (by simp),List.filter_eq_nil_iff.mpr]
      intro other listed same
      exact absent (List.mem_map.mpr ⟨other,listed,by simpa using same⟩)
    · have apart : first.pair ≠ ref.pair := fun same => absent (List.mem_map.mpr ⟨ref,later,same.symm⟩)
      rw [List.filter_cons_of_neg (by simpa using apart)]
      exact ih distinct later
theorem done_ref (standing : Standing m) (listed : call ∈ m.workers) {market : Nat} {idempotent : Bool}
    (done : call.stage = .done pair market idempotent) : ∃ ref ∈ m.shared.refs,ref.pair = pair ∧ ref.elchiMarketId = market := by
  obtain ⟨who,here⟩ := List.getElem?_of_mem listed
  have stands := standing.2 who call here
  rw [At,done] at stands
  exact stands
theorem good_exact (standing : Standing m) : Good m ↔ Provisioned m := by
  constructor
  · rintro ⟨carriedAll,unclaimed⟩
    refine ⟨fun call listed pair market idempotent done => ?_,fun one listed other listed' pair market idempotent pair' market' idempotent' done done' => ?_,
      unclaimed,fun user member pair made unbound => ?_⟩
    · obtain ⟨ref,member,rfl,rfl⟩ := done_ref standing listed done
      rw [bound_once standing.1.single member,← standing.1.live ref member]
    · obtain ⟨ref,member,rfl,rfl⟩ := done_ref standing listed done
      obtain ⟨ref',member',rfl,rfl⟩ := done_ref standing listed' done'
      constructor
      · intro same
        rw [List.inj_on_of_nodup_map standing.1.single member member' same]
      · intro same
        obtain ⟨user,present,mine,made⟩ := standing.1.backed ref member
        obtain ⟨user',present',mine',made'⟩ := standing.1.backed ref' member'
        cases standing.1.ids user present user' present' (mine.trans (same.trans mine'.symm))
        exact Option.some_inj.mp (made.symm.trans made')
    · obtain ⟨who,call,here,carries⟩ := carriedAll user member pair made unbound
      exact carried_provisionable standing here carries
  · intro provisioned
    refine ⟨fun user member pair made unbound => ?_,provisioned.unclaimed⟩
    by_contra nobody
    exact stranded_never standing (uncarried_stranded standing member made unbound nobody)
      (provisioned.recoverable user member pair made unbound)

-- A statement of a call keeps what is good exactly when the call meets the condition.
theorem progress_binds {dto : MarketRequest} {stage next : CallStage} (sound : Sound g) (binds : stage.binds g fate)
    (progress : Progress who g dto fate stage g' next) (unbound : g'.existing pair = none) (carries : carried g stage = some (pair,id)) :
    carried g' next = some (pair,id) := by
  cases progress with
  | ends before _ _ =>
    rw [carrying_none before] at carries
    cases carries
  | misses => cases carries
  | asks _ => cases carries
  | stays => exact carries
  | receives sent answered =>
    simp only [carried,sent,Option.bind_some,answered_holds answered] at carries
    exact carries
  | refused sent answered =>
    simp [carried,sent,Job.holds,answered] at carries
  | leaves stopped _ =>
    have same := carries
    simp only [carried,Option.map_eq_some_iff,Prod.mk.injEq] at same
    obtain ⟨-,-,rfl,-⟩ := same
    exact absurd (binds (by rw [carries]; rfl) unbound) stopped
  | binds _ _ _ =>
    cases carries
    simp [Registry.existing] at unbound
  | drops lost _ =>
    cases carries
    cases (lost ((live_existing sound pair).symm.trans unbound)).symm.trans (binds unbound)
theorem progress_loses {dto : MarketRequest} {stage next : CallStage} (breaks : ¬ stage.binds g fate)
    (progress : Progress who g dto fate stage g' next) :
    ∃ pair id,carried g stage = some (pair,id) ∧ g.existing pair = none ∧ g' = g ∧ carried g next = none := by
  cases progress with
  | ends before _ _ =>
    refine absurd ?_ breaks
    cases stage with
    | awaiting _ _ => cases before
    | saving _ _ => cases before
    | _ => trivial
  | misses => exact absurd trivial breaks
  | asks _ => exact absurd trivial breaks
  | stays => exact absurd (fun _ _ => rfl) breaks
  | receives _ _ => exact absurd (fun _ _ => rfl) breaks
  | refused _ _ => exact absurd (fun _ _ => rfl) breaks
  | leaves stopped after =>
    simp only [CallStage.binds] at breaks
    push Not at breaks
    obtain ⟨carries,unbound,-⟩ := breaks
    obtain ⟨⟨pair,id⟩,same⟩ := Option.isSome_iff_exists.mp carries
    have mine := same
    simp only [carried,Option.map_eq_some_iff,Prod.mk.injEq] at mine
    obtain ⟨-,-,rfl,-⟩ := mine
    refine ⟨_,id,same,unbound,rfl,?_⟩
    obtain rfl | rfl := after <;> rfl
  | binds _ writes _ => exact absurd (fun _ => writes) breaks
  | drops _ after =>
    simp only [CallStage.binds] at breaks
    push Not at breaks
    refine ⟨_,_,rfl,breaks.1,rfl,?_⟩
    obtain rfl | rfl := after <;> rfl
theorem progress_users {dto : MarketRequest} {stage next : CallStage} (progress : Progress who g dto fate stage g' next) : g'.users = g.users := by
  cases progress <;> rfl
theorem progress_unclaimed {dto : MarketRequest} {stage next : CallStage} (progress : Progress who g dto fate stage g' next)
    (unclaimed : Unclaimed g) : Unclaimed g' := by
  cases progress with
  | asks _ =>
    intro job listed refusal sent forUsername
    rcases List.mem_append.mp listed with old | new
    · exact unclaimed job old refusal sent forUsername
    · rw [List.mem_singleton.mp new] at sent
      cases sent
  | _ => exact unclaimed
theorem step_good (standing : Standing m) (good : Good m) (here : m.workers[who]? = some call) :
    call.stage.binds m.shared fate ↔ Good (partnerMarkets.advance m (.step who fate)) := by
  have progress := call_progress who fate m.shared call
  have after : (partnerMarkets.advance m (.step who fate)).shared = (provisionPartnerMarket who fate m.shared call).1 := shared_step here fate
  constructor
  · intro binds
    refine ⟨fun user member pair made unbound => ?_,?_⟩
    · rw [after] at member unbound
      rw [progress_users progress] at member
      have was : m.shared.existing pair = none := by
        refine (unbound_refs standing.1).mpr fun ref listed => ?_
        exact (unbound_refs (after ▸ (standing_advance standing (.step who fate)).1)).mp unbound ref ((progress_grows progress).refs ref listed)
      obtain ⟨other,idle,there,carries⟩ := good.1 user member pair made was
      by_cases same : other = who
      · subst same
        cases here.symm.trans there
        refine ⟨other,_,by rw [look_step here,if_pos rfl],?_⟩
        rw [after]
        exact progress_binds standing.1 binds progress unbound carries
      · refine ⟨other,idle,by rw [look_step here,if_neg same]; exact there,?_⟩
        rw [after,progress_others progress (standing.2 other idle there)]
        exact carries
    · exact after ▸ progress_unclaimed progress good.2
  · rintro ⟨carriedAll,-⟩
    by_contra breaks
    obtain ⟨pair,id,carries,unbound,same,empty⟩ := progress_loses breaks progress
    obtain ⟨user,member,rfl,made⟩ := carried_made standing.1 (standing.2 who call here) carries
    rw [same] at after
    obtain ⟨other,idle,there,carries'⟩ := carriedAll user (by rw [after]; exact member) pair made (by rw [after]; exact unbound)
    rw [after] at carries'
    rw [look_step here] at there
    split at there
    · cases there
      cases empty.symm.trans carries'
    · rename_i apart
      exact apart (carriers_same standing there here carries' carries)

variable {users : List User} {nextUserId index : Nat} {job job' : Job} {refusal : Refusal}

-- What a handler's statement does to its own market, when the handler meets the condition.
theorem next_refused (fresh : job.reply = none) (sent : (job.next fate users nextUserId).2.reply = some (.refused refusal))
    (forUsername : refusal.forUsername = true) :
    fate = .goes ∧ (job.stage = .username ∨ job.stage = .inserting ∧ fits job.dto = true) := by
  have silent : ∀ {given : Job},given.reply = none → (given.threw .thrown).reply ≠ some (.refused refusal) := by
    intro given empty same
    simp only [Job.threw,Job.answer,empty,Option.none_or,Option.some_inj,Reply.refused.injEq] at same
    rw [← same] at forUsername
    cases forUsername
  have phone : ∀ {given : Job},given.reply = none → (given.refuse phoneTaken).reply ≠ some (.refused refusal) := by
    intro given empty same
    simp only [Job.refuse,Job.answer,empty,Option.none_or,Option.some_inj,Reply.refused.injEq] at same
    rw [← same] at forUsername
    exact absurd forUsername (by decide)
  unfold Job.next at sent
  split at sent
  · rename_i queued
    simp [Job.go,queued,fresh] at sent
  · rename_i ended
    simp [Job.go,ended,fresh] at sent
  · refine ⟨rfl,?_⟩
    unfold Job.go at sent
    split at sent
    · simp [fresh] at sent
    · split at sent
      · exact absurd sent (phone fresh)
      · simp [fresh] at sent
    · rename_i there
      exact .inl there
    · rename_i there
      refine .inr ⟨there,?_⟩
      by_contra long
      simp only [insertRefusal,Bool.not_eq_true _ ▸ long,Bool.not_false,if_true] at sent
      exact silent fresh sent
    · simp [Job.answer,fresh] at sent
    · simp [fresh] at sent
  · exact absurd sent (silent fresh)
  · exact absurd sent (silent fresh)
  · simp [Job.died,fresh] at sent
theorem next_inserts (added : (job.next fate users nextUserId).1 ≠ []) : job.stage = .inserting ∧ fate.writes = true := by
  unfold Job.next at added
  have inserts : (job.go users nextUserId).1 ≠ [] → job.stage = .inserting := by
    intro added
    unfold Job.go at added
    split at added
    · exact absurd rfl added
    · split at added <;> exact absurd rfl added
    · split at added <;> exact absurd rfl added
    · assumption
    · exact absurd rfl added
    · exact absurd rfl added
  split at added
  · rename_i queued
    cases queued.symm.trans (inserts added)
  · rename_i ended
    cases ended.symm.trans (inserts added)
  · exact ⟨inserts added,rfl⟩
  · exact absurd rfl added
  · exact ⟨inserts added,rfl⟩
  · exact absurd rfl added
theorem next_holds (binds : job.binds m index fate) (unbound : m.shared.existing job.pair = none) (held : job.holds = some id) :
    (job.next fate users nextUserId).2.holds = some id := by
  have handles := next_handles users nextUserId fate job
  cases sent : job.reply with
  | some reply =>
    cases reply with
    | market market =>
      simp only [Job.holds,sent] at held
      cases held
      exact answered_holds (handles.kept _ sent)
    | refused _ => simp [Job.holds,sent] at held
  | none =>
    cases there : job.stage with
    | cashbox market =>
      rw [Job.binds,there] at binds
      cases binds sent unbound
      simp only [Job.holds,sent,there] at held
      cases held
      exact answered_holds (by simp [Job.next,there,Job.go,Job.answer,sent])
    | _ => simp [Job.holds,sent,there] at held
theorem claimed_rows (rows : List User) (jobs : List Job) (entry : Job) :
    claimed {g with users:=g.users ++ rows,nextUserId:=nextUserId,jobs:=jobs} entry =
      (claimed g entry || rows.any fun user => user.username == some entry.dto.username && user.madeFor.any (· != entry.pair)) := by
  simp only [claimed,List.any_append]

theorem work_keeps (standing : Standing m) (good : Good m) (there : m.shared.jobs[index]? = some job) (binds : job.binds m index fate) :
    Good (partnerMarkets.advance m (.world ⟨index,fate⟩)) := by
  have handles := next_handles m.shared.users m.shared.nextUserId fate job
  have listed : job ∈ m.shared.jobs := List.mem_of_getElem? there
  obtain ⟨missing,-⟩ | ⟨job',there',works⟩ := work_cases m.shared index fate
  · cases missing.symm.trans there
  cases there.symm.trans there'
  change Good ⟨m.shared.work index fate,m.workers⟩
  refine ⟨fun user member pair made unbound => ?_,?_⟩
  · replace unbound : m.shared.existing pair = none := (work_unbound m.shared index fate pair).symm.trans unbound
    have kept : ∀ (who : Nat) (call : Call),m.workers[who]? = some call → carried m.shared call.stage = some (pair,user.id) →
        carried (m.shared.work index fate) call.stage = some (pair,user.id) := by
      intro who call here carries
      have stands := standing.2 who call here
      obtain ⟨dto,stage⟩ := call
      cases stage with
      | awaiting pair place =>
        obtain ⟨-,job',sent,-,rfl⟩ := stands
        simp only [carried,sent,Option.bind_some,Option.map_eq_some_iff,Prod.mk.injEq] at carries
        obtain ⟨id,held,rfl,rfl⟩ := carries
        rw [works,carried,set_job there]
        split
        · rename_i same
          subst same
          cases sent.symm.trans there
          simp [next_holds binds unbound held]
        · simp [sent,held]
      | saving pair market => exact carries
      | _ => cases carries
    rw [works] at member
    rcases List.mem_append.mp member with old | new
    · obtain ⟨who,call,here,carries⟩ := good.1 user old pair made unbound
      exact ⟨who,call,here,kept who call here carries⟩
    · -- The new market: its call still waits for the message.
      obtain none | ⟨only,free⟩ := handles.adds
      · rw [none] at new
        cases new
      · obtain ⟨inserting,writes⟩ := next_inserts (List.ne_nil_of_mem new)
        rw [Job.binds,inserting] at binds
        obtain ⟨rfl,waiting⟩ := binds.2 free writes
        rw [only] at new
        cases List.mem_singleton.mp new
        cases made
        simp only [waits,Bool.and_eq_true,Option.isNone_iff_eq_none] at waiting
        obtain ⟨fresh,waiting⟩ := waiting
        obtain ⟨call,here,awaits⟩ : ∃ call : Call,m.workers[job.replyTo]? = some call ∧ call.stage = .awaiting job.pair index := by
          cases here : m.workers[job.replyTo]? with
          | none =>
            rw [here] at waiting
            cases waiting
          | some call => exact ⟨call,rfl,by simpa [here] using waiting⟩
        refine ⟨job.replyTo,call,here,?_⟩
        rw [awaits,works,carried,set_job there,if_pos rfl]
        simp [Job.next,inserting,Job.go,free,Job.holds,fresh,Job.row]
  · rw [works]
    intro entry member refusal sent forUsername
    rw [claimed_rows]
    obtain rfl | old := set_member member
    · have mine : claimed m.shared job = false := by
        cases fresh : job.reply with
        | none =>
          obtain ⟨rfl,username | ⟨inserting,short⟩⟩ := next_refused fresh sent forUsername
          · rw [Job.binds,username] at binds
            exact binds fresh rfl
          · rw [Job.binds,inserting] at binds
            exact binds.1 fresh rfl short
        | some earlier =>
          refine good.2 job listed refusal ?_ forUsername
          rw [← sent,handles.kept earlier fresh,fresh]
      have same : claimed m.shared (job.next fate m.shared.users m.shared.nextUserId).2 = claimed m.shared job := by
        simp only [claimed,handles.dto,handles.pair]
      rw [same,mine,handles.pair]
      obtain none | ⟨only,-⟩ := handles.adds
      · simp [none]
      · simp [only,Job.row]
    · rw [good.2 entry old refusal sent forUsername]
      obtain none | ⟨only,free⟩ := handles.adds
      · simp [none]
      · have used := standing.1.taken entry old refusal sent forUsername
        have apart : job.dto.username ≠ entry.dto.username := by
          intro same
          have unused := (inserted_unused free).2
          rw [usernameUsed,same] at unused
          cases unused.symm.trans used
        simp [only,Job.row,apart]

theorem work_binds (standing : Standing m) (good : Good (partnerMarkets.advance m (.world ⟨index,fate⟩)))
    (there : m.shared.jobs[index]? = some job) : job.binds m index fate := by
  have handles := next_handles m.shared.users m.shared.nextUserId fate job
  have listed : job ∈ m.shared.jobs := List.mem_of_getElem? there
  obtain ⟨missing,-⟩ | ⟨job',there',works⟩ := work_cases m.shared index fate
  · cases missing.symm.trans there
  cases there.symm.trans there'
  obtain ⟨carriedAll,unclaimed⟩ : Good ⟨m.shared.work index fate,m.workers⟩ := good
  have after : (m.shared.work index fate).jobs[index]? = some (job.next fate m.shared.users m.shared.nextUserId).2 := by
    rw [works,set_job there,if_pos rfl]
  -- A refusal that is due to the username shows at once.
  have refused : ∀ refusal,(job.next fate m.shared.users m.shared.nextUserId).2.reply = some (.refused refusal) → refusal.forUsername = true →
      claimed m.shared job = false := by
    intro refusal sent forUsername
    have clear := unclaimed _ (List.mem_of_getElem? after) refusal sent forUsername
    rw [works,claimed_rows] at clear
    simp only [Bool.or_eq_false_iff,claimed,handles.dto,handles.pair] at clear
    exact clear.1
  have used : claimed m.shared job = true → usernameUsed (liveUsers m.shared.users) job.dto = true := by
    intro claim
    obtain ⟨user,member,same⟩ := List.any_eq_true.mp claim
    simp only [Bool.and_eq_true,beq_iff_eq] at same
    obtain ⟨pair,made⟩ : ∃ pair,user.madeFor = some pair := by
      cases made : user.madeFor with
      | none => simp [made] at same
      | some pair => exact ⟨pair,rfl⟩
    have live := (standing.1.made user member pair made).2
    exact List.any_eq_true.mpr ⟨user,List.mem_filter.mpr ⟨member,by simp [live]⟩,by simp [same.1]⟩
  -- A market that is held no more is held by nobody else.
  have dropped : ∀ id,job.holds = some id → (job.next fate m.shared.users m.shared.nextUserId).2.holds = none → m.shared.existing job.pair ≠ none := by
    intro id held gone unbound
    obtain ⟨user,member,rfl,made⟩ := standing.1.holder job listed id held
    obtain ⟨who,call,here,carries⟩ := carriedAll user ((work_grows m.shared index fate).users user member) job.pair made
      ((work_unbound m.shared index fate job.pair).trans unbound)
    have before : carried m.shared call.stage = some (job.pair,user.id) := by
      obtain before | ⟨other,there',-,same,-⟩ := work_carries (standing.2 who call here) carries
      · exact before
      · exact absurd (standing.1.below user member) (by rw [same]; exact Nat.lt_irrefl _)
    have stands := standing.2 who call here
    obtain ⟨dto,stage⟩ := call
    cases stage with
    | awaiting pair place =>
      obtain ⟨-,other,sent,-,-⟩ := stands
      simp only [carried,sent,Option.bind_some,Option.map_eq_some_iff,Prod.mk.injEq] at before
      obtain ⟨_,held',-,rfl⟩ := before
      cases standing.1.held place index _ other job sent there held' held
      simp [carried,after,gone] at carries
    | saving pair market =>
      obtain ⟨-,place,other,sent,-,-,answered⟩ := stands
      cases before
      cases standing.1.held place index _ other job sent there (answered_holds answered) held
      cases sent.symm.trans there
      cases (answered_holds (handles.kept _ answered)).symm.trans gone
    | _ => cases before
  cases stands : job.stage with
  | username =>
    rw [Job.binds,stands]
    intro fresh goes
    subst goes
    refine Bool.eq_false_iff.mpr fun claim => ?_
    have conflicted : (job.next .goes m.shared.users m.shared.nextUserId).2.reply = some (.refused (.conflict usernameTaken)) := by
      simp [Job.next,stands,Job.go,used claim,Job.refuse,Job.answer,fresh]
    cases claim.symm.trans (refused _ conflicted (by decide))
  | inserting =>
    rw [Job.binds,stands]
    refine ⟨fun fresh goes short => ?_,fun free writes => ?_⟩
    · subst goes
      refine Bool.eq_false_iff.mpr fun claim => ?_
      have violates : insertRefusal m.shared.users job.dto = some (.violated (phoneUsed m.shared.users job.dto) true) := by
        simp [insertRefusal,short,liveUsers_used (used claim)]
      have violated : (job.next .goes m.shared.users m.shared.nextUserId).2.reply =
          some (.refused (.violated (phoneUsed m.shared.users job.dto) true)) := by
        simp [Job.next,stands,Job.go,violates,Job.threw,Job.answer,fresh]
      cases claim.symm.trans (refused _ violated rfl)
    · -- The new market has to be carried, by a call that waits for its message.
      have added : (job.next fate m.shared.users m.shared.nextUserId).1 = [job.row m.shared.nextUserId] := by
        cases fate with
        | goes => simp [Job.next,stands,Job.go,free]
        | lost => simp [Job.next,stands,Job.go,free]
        | fails => cases writes
        | dies => cases writes
      have member : job.row m.shared.nextUserId ∈ (m.shared.work index fate).users := by
        rw [works,added]
        exact List.mem_append_right _ (List.mem_singleton_self _)
      have unbound : m.shared.existing job.pair = none := by
        refine (unbound_refs standing.1).mpr fun ref present same => ?_
        obtain ⟨user,old,-,made⟩ := standing.1.backed ref present
        exact made_inserted standing.1 listed old (by rw [made,same]) free
      have fresh : ∀ (other : Job),other ∈ m.shared.jobs → other.holds ≠ some m.shared.nextUserId := by
        intro other present held
        obtain ⟨user,old,same,-⟩ := standing.1.holder other present _ held
        exact absurd (standing.1.below user old) (by rw [same]; exact Nat.lt_irrefl _)
      obtain ⟨who,call,here,carries⟩ := carriedAll _ member job.pair rfl ((work_unbound m.shared index fate job.pair).trans unbound)
      have calls := standing.2 who call here
      obtain before | ⟨other,there',awaits,-,-⟩ := work_carries calls carries
      · obtain ⟨place,other,sent,-,-,held⟩ := carried_held calls before
        exact absurd held (fresh other (List.mem_of_getElem? sent))
      · obtain ⟨dto,stage⟩ := call
        cases awaits
        obtain ⟨-,job',sent,replyTo,-⟩ := calls
        cases sent.symm.trans there
        simp only [carried,after,Option.bind_some,Option.map_eq_some_iff,Prod.mk.injEq] at carries
        obtain ⟨_,held,-,rfl⟩ := carries
        have unanswered : job.reply = none := by
          cases answered : job.reply with
          | none => rfl
          | some reply =>
            rw [Job.holds,handles.kept reply answered] at held
            cases reply with
            | market id =>
              cases held
              exact absurd (answered_holds answered) (fresh job listed)
            | refused _ => cases held
        cases fate with
        | goes =>
          refine ⟨rfl,?_⟩
          simp [waits,unanswered,replyTo,here]
        | lost => simp [Job.next,stands,Job.threw,Job.answer,Job.holds,unanswered] at held
        | fails => cases writes
        | dies => cases writes
  | cashbox market =>
    rw [Job.binds,stands]
    intro fresh unbound
    by_contra stopped
    refine dropped market (by simp [Job.holds,fresh,stands]) ?_ unbound
    cases fate with
    | goes => exact absurd rfl stopped
    | fails => simp [Job.next,stands,Job.threw,Job.answer,Job.holds,fresh]
    | lost => simp [Job.next,stands,Job.threw,Job.answer,Job.holds,fresh]
    | dies => simp [Job.next,stands,Job.died,Job.holds,fresh]
  | _ =>
    rw [Job.binds,stands]
    trivial
theorem world_good (standing : Standing m) (good : Good m) (event : Handling) :
    Binds m (.world event) ↔ Good (partnerMarkets.advance m (.world event)) := by
  constructor
  · intro binds
    cases there : m.shared.jobs[event.job]? with
    | some job => exact work_keeps standing good there (binds job there)
    | none =>
      obtain ⟨-,same⟩ | ⟨job,there',-⟩ := work_cases m.shared event.job event.fate
      · change Good ⟨m.shared.work event.job event.fate,m.workers⟩
        rw [same]
        exact good
      · cases there.symm.trans there'
  · exact fun after job there => work_binds standing after there
theorem turn_good (standing : Standing m) (good : Good m) (turn : PartnerTurn) : Binds m turn ↔ Good (partnerMarkets.advance m turn) := by
  cases turn with
  | arrive dto =>
    refine ⟨fun _ => ⟨fun user member pair made unbound => ?_,good.2⟩,fun _ => trivial⟩
    obtain ⟨who,call,here,carries⟩ := good.1 user member pair made unbound
    have inside : who < m.workers.length := (List.getElem?_eq_some_iff.mp here).1
    exact ⟨who,call,by rw [look_arrive,if_neg (Nat.ne_of_lt inside)]; exact here,carries⟩
  | step who fate =>
    cases here : m.workers[who]? with
    | none =>
      rw [idle_step here]
      refine ⟨fun _ => good,fun _ call there => ?_⟩
      cases here.symm.trans there
    | some call =>
      rw [← step_good standing good here]
      refine ⟨fun binds => binds call here,fun binds other there => ?_⟩
      cases here.symm.trans there
      exact binds
  | world event => exact world_good standing good event

end Good

-- From a registry of other users, in which nothing has been provisioned.
structure Opening (g : Registry) : Prop where
  refs : g.refs = []
  jobs : g.jobs = []
  ids : ∀ one ∈ g.users,∀ other ∈ g.users,one.id = other.id → one = other
  below : ∀ user ∈ g.users,user.id < g.nextUserId
  names : ∀ one ∈ g.users,∀ other ∈ g.users,∀ name,one.username = some name → other.username = some name → one = other
  others : ∀ user ∈ g.users,user.madeFor = none
theorem opening_standing (opening : Opening g) : Standing ⟨g,[]⟩ ∧ Good ⟨g,[]⟩ := by
  obtain ⟨refs,jobs,ids,below,names,others⟩ := opening
  have never : ∀ user ∈ g.users,∀ pair,user.madeFor ≠ some pair := by
    intro user member pair made
    cases (others user member).symm.trans made
  refine ⟨start_holds ⟨?_,?_,?_,ids,below,names,fun user member pair made => absurd made (never user member pair),?_,?_,?_,?_⟩,
    fun user member pair made => absurd made (never user member pair),?_⟩
  all_goals simp [refs,jobs,Unclaimed]
-- A run keeps every pair provisionable, bound once and apart from the others exactly when each of
-- its turns meets the condition.
theorem markets_provisioned (opening : Opening g) {turns : List PartnerTurn} :
    Runs.Meets partnerMarkets.advance Binds ⟨g,[]⟩ turns ↔ ∀ front,front <+: turns → Provisioned (partnerMarkets.run g front) := by
  have keeps : ∀ (m : PartnerRun) (turn : PartnerTurn),Standing m ∧ Good m → Binds m turn →
      Standing (partnerMarkets.advance m turn) ∧ Good (partnerMarkets.advance m turn) :=
    fun m turn both binds => ⟨standing_advance both.1 turn,(turn_good both.1 both.2 turn).mp binds⟩
  have breaks : ∀ (m : PartnerRun) (turn : PartnerTurn),Standing m ∧ Good m → ¬ Binds m turn → ¬ Provisioned (partnerMarkets.advance m turn) :=
    fun m turn both breaks provisioned =>
      breaks ((turn_good both.1 both.2 turn).mpr ((good_exact (standing_advance both.1 turn)).mpr provisioned))
  exact Runs.meets_exactly keeps (fun m both => (good_exact both.1).mp both.2) breaks (opening_standing opening)

section Decide

instance decideStage (g : Registry) (fate : Fate) : (stage : CallStage) → Decidable (stage.binds g fate)
  | .awaiting pair index =>
    inferInstanceAs (Decidable ((carried g (.awaiting pair index)).isSome = true → g.existing pair = none → fate = .goes))
  | .saving pair _ => inferInstanceAs (Decidable (g.existing pair = none → fate.writes = true))
  | .looking _ | .sending _ | .rereading _ | .done _ _ _ | .refused _ | .failed | .dead => .isTrue trivial
def decideAt (m : PartnerRun) (index : Nat) (fate : Fate) (job : Job) : (stage : JobStage) → job.stage = stage → Decidable (job.binds m index fate)
  | .username,here => decidable_of_iff (job.reply = none → fate = .goes → claimed m.shared job = false) (by rw [Job.binds,here])
  | .inserting,here => decidable_of_iff ((job.reply = none → fate = .goes → fits job.dto = true → claimed m.shared job = false) ∧
      (insertRefusal m.shared.users job.dto = none → fate.writes = true → fate = .goes ∧ waits m index job = true)) (by rw [Job.binds,here])
  | .cashbox _,here => decidable_of_iff (job.reply = none → m.shared.existing job.pair = none → fate = .goes) (by rw [Job.binds,here])
  | .queued,here | .phone,here | .ended,here => .isTrue (by rw [Job.binds,here]; trivial)
instance decideJob (m : PartnerRun) (index : Nat) (fate : Fate) (job : Job) : Decidable (job.binds m index fate) :=
  decideAt m index fate job job.stage rfl
instance decideTurn (m : PartnerRun) : (turn : PartnerTurn) → Decidable (Binds m turn)
  | .arrive _ => .isTrue trivial
  | .step who fate => inferInstanceAs (Decidable (∀ call ∈ m.workers[who]?,call.stage.binds m.shared fate))
  | .world event => inferInstanceAs (Decidable (∀ job ∈ m.shared.jobs[event.job]?,job.binds m event.job event.fate))

end Decide

-- Sellers of partner 1.
def seller (id name phone : String) : MarketRequest := ⟨some 1,some id,some name,some phone⟩
def noRegistry : Registry := ⟨[],[],1,[]⟩
theorem noRegistry_opening : Opening noRegistry := ⟨rfl,rfl,nofun,nofun,nofun,nofun⟩
def provision (who job : Nat) : List PartnerTurn :=
  .step who .goes :: .step who .goes :: List.replicate 5 (.world ⟨job,.goes⟩) ++ [.step who .goes,.step who .goes]
def twoSellers : List PartnerTurn :=
  .arrive (seller "7" "Zamon Store" "+998901234567") :: provision 0 0 ++
    .arrive (seller "8" "Bahor Store" "+998907654321") :: provision 1 1 ++
    [.arrive (seller "7" "Zamon Store" "+998901234567"),.step 2 .goes]
theorem two_sellers_provisioned : Provisioned (partnerMarkets.run noRegistry twoSellers) :=
  (markets_provisioned noRegistry_opening).mp (by decide) twoSellers (List.prefix_refl _)

-- Sellers 'a-b' and 'ab' have one username, so the second is refused, whatever its phone. And when
-- the answer is lost after the market was created, the seller's retries are refused for good.
def sameLetters : List PartnerTurn :=
  .arrive (seller "a-b" "Zamon Store" "+998901234567") :: provision 0 0 ++
    .arrive (seller "ab" "Bahor Store" "+998907654321") :: provision 1 1
def answerLost : List PartnerTurn :=
  .arrive (seller "7" "Zamon Store" "+998901234567") :: .step 0 .goes :: .step 0 .goes :: List.replicate 5 (.world ⟨0,.goes⟩) ++
    [.step 0 .fails]
theorem markets_collide_and_strand :
    (partnerMarkets.run noRegistry sameLetters).workers[1]? = some ⟨seller "ab" "Bahor Store" "+998907654321",.refused notCreated⟩ ∧
    ¬ Provisioned (partnerMarkets.run noRegistry sameLetters) ∧
    (partnerMarkets.run noRegistry answerLost).shared.users.map (·.madeFor) = [some (1,"7")] ∧
    ¬ Provisionable (partnerMarkets.run noRegistry answerLost) (1,"7") ∧ ¬ Provisioned (partnerMarkets.run noRegistry answerLost) := by
  have standing : Standing (partnerMarkets.run noRegistry answerLost) :=
    run_holds partner_keeps (opening_standing noRegistry_opening).1.1 (Runs.meets_mem (P:=fun _ => True) fun _ _ => trivial)
  have calls : (partnerMarkets.run noRegistry answerLost).workers = [⟨seller "7" "Zamon Store" "+998901234567",.refused notCreated⟩] := by
    decide
  have created : ∃ user ∈ (partnerMarkets.run noRegistry answerLost).shared.users,user.madeFor = some (1,"7") := by decide
  have stranded : ¬ Provisionable (partnerMarkets.run noRegistry answerLost) (1,"7") := by
    refine stranded_never standing ⟨by decide,created,fun who call id here carries => ?_⟩
    have listed := List.mem_of_getElem? here
    rw [calls] at listed
    cases List.mem_singleton.mp listed
    cases carries
  refine ⟨by decide,fun provisioned => ?_,by decide,stranded,fun provisioned => ?_⟩
  · have collides : ∃ job ∈ (partnerMarkets.run noRegistry sameLetters).shared.jobs,
        job.reply = some (.refused (.conflict usernameTaken)) ∧ claimed (partnerMarkets.run noRegistry sameLetters).shared job = true := by
      decide
    obtain ⟨job,listed,sent,claim⟩ := collides
    cases claim.symm.trans (provisioned.unclaimed job listed _ sent (by decide))
  · obtain ⟨user,member,made⟩ := created
    exact stranded (provisioned.recoverable user member _ made (by decide))

end Elchi.Partners
