import Elchi.PartnerMarkets
import Mathlib.Data.List.Find
namespace Elchi.Partners
open Interleaving

-- The market a handler has created and will answer, or has answered.
def Job.holds (job : Job) : Option Nat :=
  match job.reply,job.stage with
  | some (.market id),_ => some id
  | none,.cashbox id => some id
  | _,_ => none

-- What holds of the tables in every run, and what a call relies on where it stands.
structure Sound (g : Registry) : Prop where
  single : (g.refs.map (·.pair)).Nodup
  live : ∀ ref ∈ g.refs,ref.isDeleted = false
  backed : ∀ ref ∈ g.refs,∃ user ∈ g.users,user.id = ref.elchiMarketId ∧ user.madeFor = some ref.pair
  ids : ∀ one ∈ g.users,∀ other ∈ g.users,one.id = other.id → one = other
  below : ∀ user ∈ g.users,user.id < g.nextUserId
  names : ∀ one ∈ g.users,∀ other ∈ g.users,∀ name,one.username = some name → other.username = some name → one = other
  made : ∀ user ∈ g.users,∀ pair,user.madeFor = some pair → user.username = some (buildMarketUsername pair) ∧ user.isDeleted = false
  derived : ∀ job ∈ g.jobs,job.dto.username = buildMarketUsername job.pair
  holder : ∀ job ∈ g.jobs,∀ id,job.holds = some id → ∃ user ∈ g.users,user.id = id ∧ user.madeFor = some job.pair
  held : ∀ (one other id : Nat) (first second : Job),g.jobs[one]? = some first → g.jobs[other]? = some second → first.holds = some id → second.holds = some id → one = other
  taken : ∀ job ∈ g.jobs,∀ refusal,job.reply = some (.refused refusal) → refusal.forUsername = true → usernameUsed g.users job.dto = true
def At (who : Nat) (g : Registry) (call : Call) : Prop :=
  match call.stage with
  | .looking pair | .sending pair => call.dto.call.stage = .looking pair
  | .awaiting pair index => call.dto.call.stage = .looking pair ∧ ∃ job : Job,g.jobs[index]? = some job ∧ job.replyTo = who ∧ job.pair = pair
  | .saving pair market => call.dto.call.stage = .looking pair ∧
    ∃ (index : Nat) (job : Job),g.jobs[index]? = some job ∧ job.replyTo = who ∧ job.pair = pair ∧ job.reply = some (.market market)
  | .done pair market _ => ∃ ref ∈ g.refs,ref.pair = pair ∧ ref.elchiMarketId = market
  | _ => True
-- Rows and messages stay, and an answer is given once.
structure Grows (g g' : Registry) : Prop where
  refs : ∀ ref ∈ g.refs,ref ∈ g'.refs
  users : ∀ user ∈ g.users,user ∈ g'.users
  jobs : ∀ (index : Nat) (job : Job),g.jobs[index]? = some job → ∃ job' : Job,g'.jobs[index]? = some job' ∧ job'.replyTo = job.replyTo ∧
    job'.pair = job.pair ∧ ∀ reply,job.reply = some reply → job'.reply = some reply

-- What a statement of createMarket makes of its message, and the rows it adds.
structure Handles (users : List User) (nextUserId : Nat) (job : Job) (rows : List User) (job' : Job) : Prop where
  replyTo : job'.replyTo = job.replyTo
  pair : job'.pair = job.pair
  dto : job'.dto = job.dto
  kept : ∀ reply,job.reply = some reply → job'.reply = some reply
  adds : rows = [] ∨ rows = [job.row nextUserId] ∧ insertRefusal users job.dto = none
  holds : ∀ id,job'.holds = some id → job.holds = some id ∨ rows = [job.row nextUserId] ∧ id = nextUserId
  refused : ∀ refusal,job'.reply = some (.refused refusal) → refusal.forUsername = true →
    job.reply = some (.refused refusal) ∨ usernameUsed users job.dto = true
-- What a statement of provisionPartnerMarket does.
def CallStage.carrying : CallStage → Bool
  | .awaiting _ _ | .saving _ _ => true
  | _ => false
inductive Progress (who : Nat) (g : Registry) (dto : MarketRequest) : Fate → CallStage → Registry → CallStage → Prop where
  | ends {stage next : CallStage} (before : stage.carrying = false) (after : next.answered = true)
      (found : ∀ pair market idempotent,next = .done pair market idempotent → stage = next ∨ ∃ ref ∈ g.refs,ref.pair = pair ∧ ref.elchiMarketId = market) :
      Progress who g dto fate stage g next
  | misses : Progress who g dto .goes (.looking pair) g (.sending pair)
  | asks {next : CallStage} (after : next = .awaiting pair g.jobs.length ∨ next.carrying = false ∧ next.answered = true ∧ ∀ pair market again,next ≠ .done pair market again) :
      Progress who g dto fate (.sending pair) {g with jobs:=g.jobs ++ [⟨who,pair,dto.market pair,false,.queued,none⟩]} next
  | stays {index : Nat} : Progress who g dto .goes (.awaiting pair index) g (.awaiting pair index)
  | receives {index market : Nat} {job : Job} (sent : g.jobs[index]? = some job) (answered : job.reply = some (.market market)) :
      Progress who g dto .goes (.awaiting pair index) g (.saving pair market)
  | refused {index : Nat} {job : Job} {refusal : Refusal} (sent : g.jobs[index]? = some job) (answered : job.reply = some (.refused refusal)) :
      Progress who g dto .goes (.awaiting pair index) g (.refused notCreated)
  | leaves {index : Nat} {next : CallStage} (stopped : fate ≠ .goes) (after : next = .refused notCreated ∨ next = .dead) :
      Progress who g dto fate (.awaiting pair index) g next
  | binds {market : Nat} {next : CallStage} (free : g.binding pair = none) (writes : fate.writes = true)
      (after : next = .done pair market false ∨ next = .rereading pair) :
      Progress who g dto fate (.saving pair market) {g with refs:=g.refs ++ [⟨pair,market,false⟩]} next
  | drops {market : Nat} {next : CallStage} (lost : g.binding pair = none → fate.writes = false) (after : next = .rereading pair ∨ next = .dead) :
      Progress who g dto fate (.saving pair market) g next

variable {g g' : Registry} {m : PartnerRun} {pair : Pair} {id who : Nat} {fate : Fate}

section Handlers
variable {users : List User} {nextUserId : Nat} {job job' : Job} {refusal : Refusal}

theorem answer_kept (job : Job) (reply : Reply) {earlier : Reply} (sent : job.reply = some earlier) :
    (job.answer reply).reply = some earlier := by
  simp [Job.answer,sent]
theorem answer_reply (reply : Reply) (sent : (job.answer reply).reply = some given) : job.reply = some given ∨ given = reply := by
  cases earlier : job.reply with
  | none =>
    rw [Job.answer,earlier] at sent
    exact .inr (Option.some_inj.mp sent).symm
  | some earlier' =>
    rw [answer_kept job reply earlier] at sent
    exact .inl sent
theorem liveUsers_used {dto : MarketDto} (used : usernameUsed (liveUsers users) dto = true) : usernameUsed users dto = true := by
  obtain ⟨user,member,same⟩ := List.any_eq_true.mp used
  exact List.any_eq_true.mpr ⟨user,(List.mem_filter.mp member).1,same⟩
-- A statement that only moves on, that answers with an error, or that puts the message back.
theorem handles_move (stage : JobStage) (again : Bool) (empty : ∀ id,stage ≠ .cashbox id) :
    Handles users nextUserId job [] {job with stage:=stage,redelivered:=again} where
  replyTo := rfl
  pair := rfl
  dto := rfl
  kept _ sent := sent
  adds := .inl rfl
  holds id held := by
    refine .inl ?_
    unfold Job.holds at held ⊢
    cases sent : job.reply with
    | none =>
      rw [sent] at held
      cases stage with
      | cashbox id => exact absurd rfl (empty id)
      | _ => cases held
    | some reply =>
      rw [sent] at held
      cases reply with
      | market id => exact held
      | refused _ => cases held
  refused _ sent _ := .inl sent
theorem handles_refuse (stage : JobStage) (again : Bool) (known : refusal.forUsername = true → usernameUsed users job.dto = true)
    (added : rows = [] ∨ rows = [job.row nextUserId] ∧ insertRefusal users job.dto = none) :
    Handles users nextUserId job rows {job.answer (.refused refusal) with stage:=stage,redelivered:=again} where
  replyTo := rfl
  pair := rfl
  dto := rfl
  kept reply sent := answer_kept job _ sent
  adds := added
  holds id held := by
    refine .inl ?_
    unfold Job.holds at held ⊢
    cases sent : job.reply with
    | none =>
      rw [Job.answer,sent] at held
      cases held
    | some reply =>
      rw [Job.answer,sent] at held
      cases reply with
      | market id => exact held
      | refused _ => cases held
  refused given sent forUsername := by
    obtain before | same := answer_reply (.refused refusal) sent
    · exact .inl before
    · cases same
      exact .inr (known forUsername)
theorem handles_threw (known : refusal.forUsername = true → usernameUsed users job.dto = true)
    (added : rows = [] ∨ rows = [job.row nextUserId] ∧ insertRefusal users job.dto = none) :
    Handles users nextUserId job rows (job.threw refusal) :=
  handles_refuse _ true known added
theorem refusal_known (found : insertRefusal users dto = some refusal) (forUsername : refusal.forUsername = true) : usernameUsed users dto = true := by
  unfold insertRefusal at found
  split at found
  · cases found
    cases forUsername
  · split at found
    · cases found
      exact forUsername
    · cases found
theorem go_handles (job : Job) : Handles users nextUserId job (job.go users nextUserId).1 (job.go users nextUserId).2 := by
  unfold Job.go
  split
  · exact handles_move .phone job.redelivered nofun
  · split
    · exact handles_refuse .ended job.redelivered (fun forUsername => absurd forUsername (by decide)) (.inl rfl)
    · exact handles_move .username job.redelivered nofun
  · split
    · rename_i used
      exact handles_refuse .ended job.redelivered (fun _ => liveUsers_used used) (.inl rfl)
    · exact handles_move .inserting job.redelivered nofun
  · split
    · rename_i refusal found
      exact handles_threw (refusal_known found) (.inl rfl)
    · rename_i free
      refine ⟨rfl,rfl,rfl,fun _ sent => sent,.inr ⟨rfl,free⟩,fun id held => ?_,fun _ sent _ => .inl sent⟩
      unfold Job.holds at held ⊢
      cases sent : job.reply with
      | none =>
        rw [sent] at held
        cases held
        exact .inr ⟨rfl,rfl⟩
      | some reply =>
        rw [sent] at held
        cases reply with
        | market id => exact .inl held
        | refused _ => cases held
  · rename_i market there
    refine ⟨rfl,rfl,rfl,fun _ sent => answer_kept job _ sent,.inl rfl,fun id held => .inl ?_,fun given sent forUsername => .inl ?_⟩
    · unfold Job.holds at held ⊢
      cases sent : job.reply with
      | none =>
        rw [Job.answer,sent] at held
        rw [there]
        exact held
      | some reply =>
        rw [Job.answer,sent] at held
        cases reply with
        | market id => exact held
        | refused _ => cases held
    · obtain before | same := answer_reply (.market market) sent
      · exact before
      · cases same
  · exact handles_move job.stage job.redelivered (fun id same => by simp_all)
theorem next_handles (users : List User) (nextUserId : Nat) (fate : Fate) (job : Job) :
    Handles users nextUserId job (job.next fate users nextUserId).1 (job.next fate users nextUserId).2 := by
  have unknown : ∀ rows,(rows = [] ∨ rows = [job.row nextUserId] ∧ insertRefusal users job.dto = none) →
      Handles users nextUserId job rows (job.threw .thrown) :=
    fun rows added => handles_threw (fun forUsername => absurd forUsername (by decide)) added
  unfold Job.next
  split
  · exact go_handles job
  · exact go_handles job
  · exact go_handles job
  · exact unknown [] (.inl rfl)
  · exact unknown _ (go_handles job).adds
  · exact handles_move .queued true nofun

end Handlers

section Calls
variable {dto : MarketRequest} {stage next : CallStage}

theorem existing_some {ref : PartnerMarketRef} (found : g.existing pair = some ref) : ref ∈ g.refs ∧ ref.pair = pair := by
  have matched := List.find?_some found
  simp only [Bool.and_eq_true,beq_iff_eq] at matched
  exact ⟨List.mem_of_find?_eq_some found,matched.1⟩
theorem binding_some {ref : PartnerMarketRef} (found : g.binding pair = some ref) : ref ∈ g.refs ∧ ref.pair = pair :=
  ⟨List.mem_of_find?_eq_some found,by simpa using List.find?_some found⟩
theorem go_saving (pair : Pair) (market : Nat) : Call.go who g dto (.saving pair market) =
    if (g.binding pair).isSome then (g,.rereading pair)
    else ({g with refs:=g.refs ++ [⟨pair,market,false⟩]},.done pair market false) := rfl
theorem go_awaiting (pair : Pair) (index : Nat) : Call.go who g dto (.awaiting pair index) =
    match (g.jobs[index]?).bind Job.reply with
    | none => (g,.awaiting pair index)
    | some (.market id) => (g,.saving pair id)
    | some (.refused _) => (g,.refused notCreated) := rfl
-- A statement of a call that is not yet answered, whether its outcome reaches the call or not.
theorem provision_goes {stage : CallStage} (unanswered : stage.answered = false) :
    provisionPartnerMarket who .goes g ⟨dto,stage⟩ = ((Call.go who g dto stage).1,⟨dto,(Call.go who g dto stage).2⟩) := by
  rw [provisionPartnerMarket,unanswered]
  rfl
theorem provision_lost {stage : CallStage} (unanswered : stage.answered = false) :
    provisionPartnerMarket who .lost g ⟨dto,stage⟩ = ((Call.go who g dto stage).1,⟨dto,threw stage⟩) := by
  rw [provisionPartnerMarket,unanswered]
  rfl
theorem saving_progress (pair : Pair) (market : Nat) : ∀ fate,
    Progress who g dto fate (.saving pair market) (provisionPartnerMarket who fate g ⟨dto,.saving pair market⟩).1
      (provisionPartnerMarket who fate g ⟨dto,.saving pair market⟩).2.stage := by
  have free : ¬ (g.binding pair).isSome = true → g.binding pair = none := fun none => by simpa using none
  intro fate
  cases fate with
  | goes =>
    rw [provision_goes rfl,go_saving]
    split
    · rename_i taken
      exact .drops (fun none => by simp [none] at taken) (.inl rfl)
    · rename_i none
      exact .binds (free none) rfl (.inl rfl)
  | lost =>
    rw [provision_lost rfl,go_saving]
    split
    · rename_i taken
      exact .drops (fun none => by simp [none] at taken) (.inl rfl)
    · rename_i none
      exact .binds (free none) rfl (.inr rfl)
  | fails => exact .drops (fun _ => rfl) (.inl rfl)
  | dies => exact .drops (fun _ => rfl) (.inr rfl)
theorem awaiting_progress (pair : Pair) (index : Nat) : ∀ fate,
    Progress who g dto fate (.awaiting pair index) (provisionPartnerMarket who fate g ⟨dto,.awaiting pair index⟩).1
      (provisionPartnerMarket who fate g ⟨dto,.awaiting pair index⟩).2.stage := by
  intro fate
  cases fate with
  | goes =>
    rw [provision_goes rfl,go_awaiting]
    cases sent : g.jobs[index]? with
    | none => exact .stays
    | some job =>
      cases answered : job.reply with
      | none =>
        simp only [Option.bind_some,answered]
        exact .stays
      | some reply =>
        simp only [Option.bind_some,answered]
        cases reply with
        | market id => exact .receives sent answered
        | refused refusal => exact .refused sent answered
  | fails => exact .leaves nofun (.inl rfl)
  | lost =>
    have same : (Call.go who g dto (.awaiting pair index)).1 = g := by
      rw [go_awaiting]
      split <;> rfl
    rw [provision_lost rfl,same]
    exact .leaves nofun (.inl rfl)
  | dies => exact .leaves nofun (.inr rfl)
theorem call_progress (who : Nat) (fate : Fate) (g : Registry) (call : Call) :
    Progress who g call.dto fate call.stage (provisionPartnerMarket who fate g call).1 (provisionPartnerMarket who fate g call).2.stage := by
  obtain ⟨dto,stage⟩ := call
  cases stage with
  | looking pair =>
    cases fate with
    | goes =>
      simp only [provisionPartnerMarket,CallStage.answered,Bool.false_eq_true,if_false,Call.go]
      cases found : g.existing pair with
      | none => exact .misses
      | some ref =>
        refine .ends rfl rfl fun p market idempotent same => .inr ?_
        cases same
        exact ⟨ref,(existing_some found).1,(existing_some found).2,rfl⟩
    | lost =>
      have same : (Call.go who g dto (.looking pair)).1 = g := by
        simp only [Call.go]
        split <;> rfl
      simp only [provisionPartnerMarket,CallStage.answered,Bool.false_eq_true,if_false,same]
      exact .ends rfl rfl nofun
    | _ => exact .ends rfl rfl nofun
  | sending pair =>
    cases fate with
    | goes => exact .asks (.inl rfl)
    | lost => exact .asks (.inr ⟨rfl,rfl,nofun⟩)
    | _ => exact .ends rfl rfl nofun
  | awaiting pair index => exact awaiting_progress pair index fate
  | saving pair market => exact saving_progress pair market fate
  | rereading pair =>
    cases fate with
    | goes =>
      simp only [provisionPartnerMarket,CallStage.answered,Bool.false_eq_true,if_false,Call.go]
      cases found : g.binding pair with
      | none => exact .ends rfl rfl nofun
      | some ref =>
        refine .ends rfl rfl fun p market idempotent same => .inr ?_
        cases same
        exact ⟨ref,(binding_some found).1,(binding_some found).2,rfl⟩
    | lost =>
      have same : (Call.go who g dto (.rereading pair)).1 = g := by
        simp only [Call.go]
        split <;> rfl
      simp only [provisionPartnerMarket,CallStage.answered,Bool.false_eq_true,if_false,same]
      exact .ends rfl rfl nofun
    | _ => exact .ends rfl rfl nofun
  | done pair market idempotent => exact .ends rfl rfl fun _ _ _ _ => .inl rfl
  | _ => exact .ends rfl rfl nofun
theorem call_dto (who : Nat) (fate : Fate) (g : Registry) (call : Call) : (provisionPartnerMarket who fate g call).2.dto = call.dto := by
  unfold provisionPartnerMarket
  split
  · rfl
  · cases fate <;> rfl

end Calls

section Tables
variable {rows : List User} {index other : Nat} {job job' : Job} {dto : MarketRequest} {stage next : CallStage}

theorem live_existing (sound : Sound g) (pair : Pair) : g.existing pair = g.binding pair := by
  unfold Registry.existing Registry.binding
  refine List.find?_congr fun ref member => ?_
  simp [sound.live ref member]
theorem unbound_refs (sound : Sound g) : g.existing pair = none ↔ ∀ ref ∈ g.refs,ref.pair ≠ pair := by
  rw [live_existing sound,Registry.binding,List.find?_eq_none]
  simp
theorem unused_name {dto : MarketDto} (unused : usernameUsed users dto = false) : ∀ user ∈ users,user.username ≠ some dto.username := by
  intro user member same
  have used : usernameUsed users dto = true := List.any_eq_true.mpr ⟨user,member,by simp [same]⟩
  cases unused.symm.trans used
theorem inserted_unused {dto : MarketDto} (free : insertRefusal users dto = none) : fits dto = true ∧ usernameUsed users dto = false := by
  unfold insertRefusal at free
  split at free
  · cases free
  · rename_i fits
    split at free
    · cases free
    · rename_i unused
      simp only [Bool.or_eq_true,not_or,Bool.not_eq_true] at unused
      exact ⟨by simpa using fits,unused.2⟩
-- The message of a handler after its statement, and every other message.
theorem set_job (there : g.jobs[index]? = some job) (job' : Job) (other : Nat) :
    (g.jobs.set index job')[other]? = if other = index then some job' else g.jobs[other]? := by
  rw [List.getElem?_set]
  have inside : index < g.jobs.length := (List.getElem?_eq_some_iff.mp there).1
  by_cases same : index = other
  · subst same
    simp [inside]
  · simp [same,Ne.symm same]
theorem set_member (member : entry ∈ g.jobs.set index job') : entry = job' ∨ entry ∈ g.jobs := by
  obtain before | same := List.mem_or_eq_of_mem_set member
  · exact .inr before
  · exact .inl same
theorem work_cases (g : Registry) (index : Nat) (fate : Fate) :
    (g.jobs[index]? = none ∧ g.work index fate = g) ∨
    ∃ job,g.jobs[index]? = some job ∧
      g.work index fate = {g with
        users:=g.users ++ (job.next fate g.users g.nextUserId).1,
        nextUserId:=g.nextUserId+(job.next fate g.users g.nextUserId).1.length,
        jobs:=g.jobs.set index (job.next fate g.users g.nextUserId).2} := by
  unfold Registry.work
  cases there : g.jobs[index]? with
  | none => exact .inl ⟨rfl,rfl⟩
  | some job => exact .inr ⟨job,rfl,rfl⟩

theorem handles_grows (there : g.jobs[index]? = some job) (handles : Handles g.users g.nextUserId job rows job') :
    Grows g {g with users:=g.users ++ rows,nextUserId:=g.nextUserId+rows.length,jobs:=g.jobs.set index job'} where
  refs _ member := member
  users _ member := List.mem_append_left _ member
  jobs other found here := by
    rw [set_job there]
    split
    · rename_i same
      subst same
      cases here.symm.trans there
      exact ⟨job',rfl,handles.replyTo,handles.pair,handles.kept⟩
    · exact ⟨found,here,rfl,rfl,fun _ sent => sent⟩
theorem grows_same (g : Registry) : Grows g g := ⟨fun _ member => member,fun _ member => member,fun _ job here => ⟨job,here,rfl,rfl,fun _ sent => sent⟩⟩
theorem at_grows (grows : Grows g g') {call : Call} (stands : At who g call) : At who g' call := by
  obtain ⟨dto,stage⟩ := call
  cases stage with
  | looking pair => exact stands
  | sending pair => exact stands
  | awaiting pair index =>
    obtain ⟨looks,job,here,mine,same⟩ := stands
    obtain ⟨job',there,replyTo,samePair,-⟩ := grows.jobs index job here
    exact ⟨looks,job',there,replyTo.trans mine,samePair.trans same⟩
  | saving pair market =>
    obtain ⟨looks,index,job,here,mine,same,answered⟩ := stands
    obtain ⟨job',there,replyTo,samePair,kept⟩ := grows.jobs index job here
    exact ⟨looks,index,job',there,replyTo.trans mine,samePair.trans same,kept _ answered⟩
  | done pair market idempotent =>
    obtain ⟨ref,member,same⟩ := stands
    exact ⟨ref,grows.refs ref member,same⟩
  | _ => trivial
theorem answered_holds (answered : job.reply = some (.market id)) : job.holds = some id := by
  simp [Job.holds,answered]

theorem handles_sound (sound : Sound g) (there : g.jobs[index]? = some job) (handles : Handles g.users g.nextUserId job rows job') :
    Sound {g with users:=g.users ++ rows,nextUserId:=g.nextUserId+rows.length,jobs:=g.jobs.set index job'} := by
  have member : job ∈ g.jobs := List.mem_of_getElem? there
  have mine : ∀ user ∈ rows,user = job.row g.nextUserId ∧ usernameUsed g.users job.dto = false := by
    intro user listed
    obtain none | ⟨one,free⟩ := handles.adds
    · rw [none] at listed
      cases listed
    · rw [one] at listed
      exact ⟨List.mem_singleton.mp listed,(inserted_unused free).2⟩
  have fresh : ∀ user ∈ g.users,user.id ≠ g.nextUserId := fun user listed => Nat.ne_of_lt (sound.below user listed)
  have named : job.dto.username = buildMarketUsername job.pair := sound.derived job member
  have holder : ∀ id,job'.holds = some id → ∃ user ∈ g.users ++ rows,user.id = id ∧ user.madeFor = some job.pair := by
    intro id held
    obtain before | ⟨one,rfl⟩ := handles.holds id held
    · obtain ⟨user,listed,same⟩ := sound.holder job member id before
      exact ⟨user,List.mem_append_left _ listed,same⟩
    · exact ⟨job.row g.nextUserId,List.mem_append_right _ (by simp [one]),rfl,rfl⟩
  -- A market a message holds is one of the rows; the new one is not.
  have apart : ∀ (place : Nat) (entry : Job) (id : Nat),place ≠ index → g.jobs[place]? = some entry → entry.holds = some id → job'.holds ≠ some id := by
    intro place entry id elsewhere here held now
    obtain before | ⟨-,rfl⟩ := handles.holds id now
    · exact elsewhere (sound.held place index id entry job here there held before)
    · obtain ⟨user,listed,same,-⟩ := sound.holder entry (List.mem_of_getElem? here) _ held
      exact fresh user listed same
  refine ⟨sound.single,sound.live,fun ref listed => ?_,?_,?_,?_,?_,?_,?_,?_,?_⟩
  · obtain ⟨user,present,same⟩ := sound.backed ref listed
    exact ⟨user,List.mem_append_left _ present,same⟩
  · intro one first other second same
    rcases List.mem_append.mp first with old | new <;> rcases List.mem_append.mp second with old' | new'
    · exact sound.ids one old other old' same
    · rw [(mine other new').1] at same
      exact absurd same (fresh one old)
    · rw [(mine one new).1] at same
      exact absurd same.symm (fresh other old')
    · exact (mine one new).1.trans (mine other new').1.symm
  · intro user listed
    rcases List.mem_append.mp listed with old | new
    · exact Nat.lt_of_lt_of_le (sound.below user old) (Nat.le_add_right _ _)
    · rw [(mine user new).1]
      exact Nat.lt_add_of_pos_right (List.length_pos_of_mem new)
  · intro one first other second name left right
    rcases List.mem_append.mp first with old | new <;> rcases List.mem_append.mp second with old' | new'
    · exact sound.names one old other old' name left right
    · obtain ⟨rfl,unused⟩ := mine other new'
      cases right
      exact absurd left (unused_name unused one old)
    · obtain ⟨rfl,unused⟩ := mine one new
      cases left
      exact absurd right (unused_name unused other old')
    · exact (mine one new).1.trans (mine other new').1.symm
  · intro user listed pair made
    rcases List.mem_append.mp listed with old | new
    · exact sound.made user old pair made
    · obtain ⟨rfl,-⟩ := mine user new
      cases made
      exact ⟨congrArg some named,rfl⟩
  · intro entry listed
    obtain rfl | before := set_member listed
    · rw [handles.dto,handles.pair]
      exact named
    · exact sound.derived entry before
  · intro entry listed id held
    obtain rfl | before := set_member listed
    · rw [handles.pair]
      exact holder id held
    · obtain ⟨user,present,same⟩ := sound.holder entry before id held
      exact ⟨user,List.mem_append_left _ present,same⟩
  · intro one other id first second here here' held held'
    rw [set_job there] at here here'
    split at here <;> split at here'
    · rename_i same same'
      exact same.trans same'.symm
    · rename_i same elsewhere
      cases here
      exact absurd held (apart other second id elsewhere here' held')
    · rename_i elsewhere same
      cases here'
      exact absurd held' (apart one first id elsewhere here held)
    · exact sound.held one other id first second here here' held held'
  · intro entry listed refusal sent forUsername
    have still : ∀ {dto : MarketDto},usernameUsed g.users dto = true → usernameUsed (g.users ++ rows) dto = true := by
      intro dto used
      simp [usernameUsed] at used ⊢
      exact .inl used
    obtain rfl | before := set_member listed
    · rw [handles.dto]
      obtain earlier | used := handles.refused refusal sent forUsername
      · exact still (sound.taken job member refusal earlier forUsername)
      · exact still used
    · exact still (sound.taken entry before refusal sent forUsername)
theorem progress_sound (sound : Sound g) (progress : Progress who g dto fate stage g' next) (stands : At who g ⟨dto,stage⟩) :
    Sound g' := by
  cases progress with
  | asks after =>
    rename_i pair
    clear after
    have silent : ∀ (place : Nat) (entry : Job),(g.jobs ++ [⟨who,pair,dto.market pair,false,.queued,none⟩])[place]? = some entry →
        g.jobs[place]? = some entry ∨ entry.holds = none := by
      intro place entry here
      rw [List.getElem?_append] at here
      split at here
      · exact .inl here
      · obtain ⟨-,same⟩ := List.getElem?_eq_some_iff.mp here
        have only := List.mem_of_getElem? here
        exact .inr (by rw [List.mem_singleton.mp only]; rfl)
    refine ⟨sound.single,sound.live,sound.backed,sound.ids,sound.below,sound.names,sound.made,?_,?_,?_,?_⟩
    · intro entry listed
      rcases List.mem_append.mp listed with before | new
      · exact sound.derived entry before
      · rw [List.mem_singleton.mp new]
        rfl
    · intro entry listed id held
      rcases List.mem_append.mp listed with before | new
      · exact sound.holder entry before id held
      · rw [List.mem_singleton.mp new] at held
        cases held
    · intro one other id first second here here' held held'
      obtain before | none := silent one first here
      · obtain before' | none' := silent other second here'
        · exact sound.held one other id first second before before' held held'
        · cases none'.symm.trans held'
      · cases none.symm.trans held
    · intro entry listed refusal sent forUsername
      rcases List.mem_append.mp listed with before | new
      · exact sound.taken entry before refusal sent forUsername
      · rw [List.mem_singleton.mp new] at sent
        cases sent
  | binds free writes after =>
    rename_i pair market
    obtain ⟨-,index,job,here,-,rfl,answered⟩ := stands
    have absent := (unbound_refs sound).mp ((live_existing sound _).trans free)
    refine ⟨?_,fun ref listed => ?_,fun ref listed => ?_,sound.ids,sound.below,sound.names,sound.made,sound.derived,sound.holder,sound.held,
      sound.taken⟩
    · rw [List.map_append]
      refine List.nodup_append.mpr ⟨sound.single,List.nodup_singleton _,fun one first other second => ?_⟩
      obtain ⟨ref,listed,rfl⟩ := List.mem_map.mp first
      rw [List.mem_singleton.mp second]
      exact absent ref listed
    · rcases List.mem_append.mp listed with before | new
      · exact sound.live ref before
      · rw [List.mem_singleton.mp new]
    · rcases List.mem_append.mp listed with before | new
      · exact sound.backed ref before
      · rw [List.mem_singleton.mp new]
        exact sound.holder job (List.mem_of_getElem? here) market (answered_holds answered)
  | _ => exact sound
theorem progress_grows (progress : Progress who g dto fate stage g' next) : Grows g g' := by
  cases progress with
  | asks _ =>
    refine ⟨fun _ member => member,fun _ member => member,fun index job here => ⟨job,?_,rfl,rfl,fun _ sent => sent⟩⟩
    exact (List.getElem?_append_left (List.getElem?_eq_some_iff.mp here).1).trans here
  | binds _ _ _ => exact ⟨fun _ member => List.mem_append_left _ member,fun _ member => member,(grows_same g).jobs⟩
  | _ => exact grows_same g
theorem progress_at (progress : Progress who g dto fate stage g' next) (stands : At who g ⟨dto,stage⟩) : At who g' ⟨dto,next⟩ := by
  cases progress with
  | ends before after found =>
    cases next with
    | done pair market idempotent =>
      obtain same | ⟨ref,member,same⟩ := found pair market idempotent rfl
      · subst same
        exact stands
      · exact ⟨ref,member,same⟩
    | refused _ => trivial
    | failed => trivial
    | dead => trivial
    | _ => cases after
  | misses => exact stands
  | asks after =>
    obtain rfl | ⟨-,answered,never⟩ := after
    · exact ⟨stands,_,List.getElem?_concat_length,rfl,rfl⟩
    · cases next with
      | done pair market idempotent => exact absurd rfl (never pair market idempotent)
      | refused _ => trivial
      | failed => trivial
      | dead => trivial
      | _ => cases answered
  | stays => exact stands
  | receives sent answered =>
    obtain ⟨looks,job,here,mine,same⟩ := stands
    cases here.symm.trans sent
    exact ⟨looks,_,_,here,mine,same,answered⟩
  | refused _ _ => trivial
  | leaves _ after =>
    obtain rfl | rfl := after
    · trivial
    · trivial
  | binds free writes after =>
    obtain rfl | rfl := after
    · exact ⟨_,List.mem_append_right _ (List.mem_singleton_self _),rfl,rfl⟩
    · trivial
  | drops _ after =>
    obtain rfl | rfl := after
    · trivial
    · trivial

end Tables

end Elchi.Partners
