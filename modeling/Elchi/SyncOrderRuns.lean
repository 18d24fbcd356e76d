import Elchi.SyncOrder
namespace Elchi.Syncing
open RowLock hiding Machine Turn
open Interleaving

section Statements
variable {env : Env} {g g' : Board} {who id : Nat} {row item : SyncItem}

-- A statement has an effect, and may end by giving up the lock.
def Reaches (who : Nat) (g after : Board) : Prop := ∃ g',Effect who g g' ∧ (after = g' ∨ after = g'.unlock who)
theorem reaches_same (who : Nat) (g : Board) : Reaches who g g := ⟨g,.keeps,.inl rfl⟩
theorem reaches_unlock (who : Nat) (g : Board) : Reaches who g (g.unlock who) := ⟨g,.keeps,.inr rfl⟩
theorem reaches_effect (effect : Effect who g g') : Reaches who g g' := ⟨g',effect,.inl rfl⟩
theorem reaches_gives_up (reaches : Reaches who g g') : Reaches who g (g'.unlock who) := by
  obtain ⟨middle,effect,same | same⟩ := reaches
  · exact ⟨middle,effect,.inr (by rw [same])⟩
  · refine ⟨middle,effect,.inr ?_⟩
    subst same
    unfold Board.unlock
    by_cases mine : middle.lock = some who
    · simp [mine]
    · simp [mine]
theorem saves_silent (present : g.items.row id = some row) (same : Same row item) (move : Move who g id row item) :
    Effect who g (g.save id item) := by
  have saves := Effect.saves [] rfl present same move
  rwa [List.append_nil] at saves

-- Each statement of the work on a row, from where it stands to where it goes.
theorem begins_reaches (orderly : Orderly g) (mine : g.lock = some who) (stands : Stands g id item .starting) (foremost : NoOlder g id item.target) :
    Reaches who g ((g.save id item.begun).note (.attempted id)) ∧
      Stands ((g.save id item.begun).note (.attempted id)) id item.begun .loading := by
  obtain ⟨row,here,same,pending⟩ := stands
  have move : Move who g id row item.begun := .begins mine pending rfl (same.target ▸ foremost)
  have acc := silent_accepted (g:=g) (show [Event.attempted id].filterMap Event.acceptance = [] from rfl) id item.begun
  refine ⟨reaches_effect (.saves [.attempted id] rfl here ⟨same.target,same.sent⟩ move),item.begun,save_self here,⟨rfl,rfl⟩,rfl,fun has => ?_,
    fun newer later there less shared taken => ?_⟩
  · have old : g.has id := by
      rw [Board.has,← acc]
      exact has
    obtain ⟨⟨key,sent⟩,member,rfl⟩ := List.mem_map.mp old
    obtain ⟨stored,present,-,taken⟩ := orderly.stored key sent member
    cases present.symm.trans here
    exact pending_untaken pending taken
  · obtain ⟨rfl,-⟩ | ⟨-,before⟩ := saved_row here there
    · exact Nat.lt_irrefl _ less
    · exact orderly.behind newer later before taken id row here less (same.target.trans shared.symm) pending
theorem accepts_reaches (mine : g.lock = some who) (stands : Stands g id item .calling) :
    Reaches who g (g.note (.accepted id item)) ∧ Stands (g.note (.accepted id item)) id item.completed .completing := by
  obtain ⟨row,here,same,was,unsent,last⟩ := stands
  refine ⟨reaches_effect (.accepts mine here same was unsent last),row,here,⟨same.target,same.sent⟩,was,?_,rfl⟩
  rw [Board.has,note_accepted]
  simp
theorem saves_reaches (mine : g.lock = some who) (stage : Stage) (ends : stage = .abandoning ∨ stage = .failing ∨ stage = .completing)
    (stands : Stands g id item stage) : Reaches who g (g.save id item) ∧ ∃ row,(g.save id item).items.row id = some row ∧ Same row item := by
  obtain ⟨row,here,same,rest⟩ := stands
  refine ⟨reaches_effect (saves_silent here same ?_),item,save_self here,rfl,rfl⟩
  rcases ends with rfl | rfl | rfl
  · exact .ends mine rest.1 rest.2.2.2 rest.2.1 rest.2.2.1
  · exact .ends mine rest.1 rest.2.2.2 rest.2.1 rest.2.2.1
  · exact .completes mine rest.1 rest.2.2 rest.2.1

theorem work_reaches (orderly : Orderly g) (mine : g.lock = some who) {round : Round} {stage : Stage} (stands : Stands g id item stage)
    (may : stage = .starting → NoOlder g id item.target) :
    Reaches who g (workOn env g round id item stage).1 ∧ At who (workOn env g round id item stage).1 (workOn env g round id item stage).2 := by
  cases stage with
  | starting =>
    obtain ⟨reaches,next⟩ := begins_reaches orderly mine stands (may rfl)
    exact ⟨reaches,mine,next⟩
  | loading =>
    obtain ⟨row,here,same,was,unsent,last⟩ := stands
    have abandons : ∀ error,At who g (.working round id (item.abandoned error) .abandoning) := fun error =>
      ⟨mine,row,here,⟨same.target,same.sent⟩,was,unsent,last,by rintro (taken | taken) <;> cases taken⟩
    simp only [workOn]
    split
    · exact ⟨reaches_same who g,abandons _⟩
    · split
      · exact ⟨reaches_same who g,abandons _⟩
      · exact ⟨reaches_same who g,mine,row,here,same,was,unsent,last⟩
  | abandoning =>
    obtain ⟨reaches,row,here,same⟩ := saves_reaches mine .abandoning (.inl rfl) stands
    exact ⟨reaches,mine,row,here,same,trivial⟩
  | calling =>
    obtain ⟨reaches,next⟩ := accepts_reaches mine stands
    exact ⟨reaches,mine,next⟩
  | completing =>
    obtain ⟨reaches,row,here,same⟩ := saves_reaches mine .completing (.inr (.inr rfl)) stands
    exact ⟨reaches,mine,row,here,same,trivial⟩
  | crediting => exact ⟨reaches_same who g,mine,stands⟩
  | recording => exact ⟨reaches_same who g,mine⟩
  | failing =>
    obtain ⟨reaches,row,here,same⟩ := saves_reaches mine .failing (.inr (.inl rfl)) stands
    exact ⟨reaches,mine,row,here,same,trivial⟩
  | logging => exact ⟨reaches_same who g,mine⟩

theorem go_reaches (orderly : Orderly g) {runner : Runner} {fate : Fate} (stands : At who g runner) (writes : fate.writes = true)
    (inTurn : runner.InTurn g fate) : Reaches who g (runner.go env who g).1 ∧ At who (runner.go env who g).1 (runner.go env who g).2 := by
  have found : ∀ sel,∀ entry ∈ oldestFirst (g.items.select sel),g.items.row entry.1 = some entry.2 ∧ sel entry.1 entry.2 = true :=
    fun sel entry member => select_row (ascending_keyed orderly.ascending) (oldestFirst_mem member)
  cases runner with
  | enqueueing input =>
    simp only [Runner.go]
    split
    · exact ⟨reaches_same who g,trivial⟩
    · split
      · exact ⟨reaches_same who g,trivial⟩
      · exact ⟨reaches_same who g,rfl⟩
  | inserting item => exact ⟨reaches_effect (.inserts stands),trivial⟩
  | finding queueId integrationId =>
    simp only [Runner.go]
    split
    · exact ⟨reaches_same who g,trivial⟩
    · rename_i row here
      refine ⟨reaches_same who g,fun entry single => ?_⟩
      rw [List.mem_singleton] at single
      subst single
      exact ⟨row,(Option.filter_eq_some_iff.mp here).1,rfl,rfl⟩
  | findingAll integrationId =>
    exact ⟨reaches_same who g,fun entry member => ⟨entry.2,(found _ entry (List.mem_of_mem_take member)).1,rfl,rfl⟩⟩
  | resetting rows round =>
    cases rows with
    | nil => exact ⟨reaches_same who g,trivial⟩
    | cons first rest =>
      obtain ⟨key,read⟩ := first
      obtain ⟨still,last⟩ := inTurn writes
      obtain ⟨row,here,same⟩ := stands (key,read) List.mem_cons_self
      have was : row.status = .failed ∨ row.status = .permanentlyFailed := by
        rw [here] at still
        simpa [gaveUp,inIntegration] using still
      have effect : Effect who g ((g.save key read.reset).note (.putBack key)) :=
        .saves [.putBack key] rfl here ⟨same.target,same.sent⟩ (.resets was rfl (same.target ▸ last))
      exact ⟨reaches_effect effect,fun entry member => effect_same orderly effect (stands entry (.tail _ member))⟩
  | locking round =>
    simp only [Runner.go]
    split
    · rename_i free
      exact ⟨reaches_effect (.locks (Option.isNone_iff_eq_none.mp free)),rfl⟩
    · exact ⟨reaches_same who g,trivial⟩
  | picking round =>
    simp only [Runner.go]
    split
    · split
      · exact ⟨reaches_same who g,stands⟩
      · rename_i id item rest listed
        obtain ⟨here,fits⟩ := found _ (id,item) (listed ▸ List.mem_cons_self)
        have pending : item.status = .pending := by
          simp only [eligible,Bool.and_eq_true,beq_iff_eq] at fits
          exact fits.1.1
        exact ⟨reaches_same who g,stands,item,here,⟨rfl,rfl⟩,pending⟩
    · exact ⟨reaches_same who g,stands⟩
  | working round id item stage =>
    exact work_reaches orderly stands.1 stands.2 (fun first => by subst first; exact inTurn writes)
  | unlocking round => exact ⟨reaches_unlock who g,trivial⟩
  | _ => exact ⟨reaches_same who g,stands⟩

theorem reaches_orderly (orderly : Orderly g) (reaches : Reaches who g g') : Orderly g' := by
  obtain ⟨middle,effect,same | same⟩ := reaches
  · exact same ▸ effect_orderly orderly effect
  · exact same ▸ unlock_orderly (effect_orderly orderly effect) who
theorem reaches_others (orderly : Orderly g) (reaches : Reaches who g g') {other : Nat} (apart : other ≠ who) {idle : Runner}
    (stands : At other g idle) : At other g' idle := by
  obtain ⟨middle,effect,same | same⟩ := reaches
  · exact same ▸ at_others orderly effect apart stands
  · exact same ▸ at_unlock apart (at_others orderly effect apart stands)

theorem retried_untaken (now : Nat) (message : String) (item : SyncItem) : ¬ Taken (item.retried now message) := by
  unfold SyncItem.retried
  split
  · exact pending_untaken rfl
  · exact taken_not_open (.inr rfl)
theorem retried_same (now : Nat) (message : String) (same : Same row item) : Same row (item.retried now message) := by
  unfold SyncItem.retried
  split
  · exact ⟨same.target,same.sent⟩
  · exact ⟨same.target,same.sent⟩
theorem call_fails {round : Round} (stands : At who g (.working round id item .calling)) (message : String) :
    At who g (.working round id (item.retried g.now message) .failing) := by
  obtain ⟨mine,row,here,same,was,unsent,last⟩ := stands
  exact ⟨mine,row,here,retried_same g.now message same,was,unsent,last,retried_untaken g.now message item⟩
-- An error of any other statement gives up the lock.
theorem threw_reaches (message : String) {runner : Runner} (reaches : Reaches who g g')
    (caught : ∀ round id item stage,runner = .working round id item stage → stage.caught = true →
      At who g' (.working round id (item.retried g'.now message) .failing)) :
    Reaches who g (runner.threw who message g').1 ∧ At who (runner.threw who message g').1 (runner.threw who message g').2 := by
  cases runner with
  | working round id item stage =>
    simp only [Runner.threw]
    split
    · rename_i inside
      exact ⟨reaches,caught round id item stage rfl inside⟩
    · exact ⟨reaches_gives_up reaches,trivial⟩
  | _ => exact ⟨reaches_gives_up reaches,trivial⟩
theorem caught_calling {round : Round} {stage : Stage} {fate : Fate} (inside : stage.caught = true) (throws : fate.throws = true)
    (inTurn : (Runner.working round id item stage).InTurn g fate) : stage = .calling ∧ fate.writes = false := by
  cases stage with
  | calling =>
    refine ⟨rfl,Bool.eq_false_iff.mpr fun writes => ?_⟩
    cases throws.symm.trans (inTurn writes)
  | completing | crediting | recording => cases throws.symm.trans inTurn
  | _ => cases inside
variable (env) in
theorem next_reaches (orderly : Orderly g) {runner : Runner} {fate : Fate} (stands : At who g runner) (inTurn : runner.InTurn g fate) :
    Reaches who g (nextStatement env who fate g runner).1 ∧
      At who (nextStatement env who fate g runner).1 (nextStatement env who fate g runner).2 := by
  unfold nextStatement
  split
  · exact ⟨reaches_same who g,stands⟩
  · cases fate with
    | goes => exact go_reaches orderly stands rfl inTurn
    | dies => exact ⟨reaches_unlock who g,trivial⟩
    | fails message =>
      refine threw_reaches message (reaches_same who g) fun round id item stage same inside => ?_
      subst same
      obtain ⟨rfl,-⟩ := caught_calling inside rfl inTurn
      exact call_fails stands message
    | lost message =>
      refine threw_reaches message (go_reaches orderly stands rfl inTurn).1 fun round id item stage same inside => ?_
      subst same
      cases (caught_calling inside rfl inTurn).2

end Statements

theorem order_keeps (env : Env) : (syncBoard env).Keeps InTurn (fun _ => Orderly) At where
  arrive m request holds met := ⟨holds.1,by cases request <;> trivial⟩
  own m who fate runner holds met here := by
    obtain ⟨reaches,stands⟩ := next_reaches env holds.1 (holds.2 who runner here) (met runner here)
    exact ⟨reaches_orderly holds.1 reaches,stands⟩
  others m who fate runner other idle holds met here apart there :=
    reaches_others holds.1 (next_reaches env holds.1 (holds.2 who runner here) (met runner here)).1 apart (holds.2 other idle there)
  world m ms holds met := by
    obtain ⟨ascending,below,stored,sorted,behind,completed⟩ := holds.1
    refine ⟨⟨ascending,below,stored,sorted,behind,completed⟩,fun who runner here => ?_⟩
    have stands := holds.2 who runner here
    cases runner with
    | working round id item stage => cases stage <;> exact stands
    | _ => exact stands

-- What has been enqueued for an order of the external system, and what that has accepted for it:
-- the items with the statuses they report.
def reports (target : Nat × String) (rows : Table SyncItem) : Table String :=
  (rows.filter fun entry => entry.2.target = target).map fun entry => (entry.1,entry.2.sent)
structure InOrder (g : Board) (target : Nat × String) : Prop where
  subsequence : (reports target g.accepted).Sublist (reports target g.items)
  latest : (∀ entry ∈ g.items,entry.2.target = target → entry.2.status = .completed ∨ entry.2.status = .permanentlyFailed) →
    reports target g.accepted = reports target (g.items.filter fun entry => entry.2.status = .completed)

theorem reports_mem {rows : Table SyncItem} {id : Nat} {text : String} : (id,text) ∈ reports target rows ↔ ∃ item,(id,item) ∈ rows ∧ item.target = target ∧ item.sent = text := by
  simp only [reports,List.mem_map,List.mem_filter,decide_eq_true_eq,Prod.mk.injEq]
  constructor
  · rintro ⟨⟨key,item⟩,⟨member,mine⟩,rfl,rfl⟩
    exact ⟨item,member,mine,rfl⟩
  · rintro ⟨item,member,mine,rfl⟩
    exact ⟨(id,item),⟨member,mine⟩,rfl,rfl⟩
theorem reports_ascending {rows : Table SyncItem} (sorted : rows.Pairwise fun a b => a.2.target = b.2.target → a.1 < b.1) :
    Ascending (reports target rows) := by
  refine List.pairwise_map.mpr (List.pairwise_filter.mpr (sorted.imp fun less left right => ?_))
  exact less ((of_decide_eq_true left).trans (of_decide_eq_true right).symm)
theorem orderly_in_order (orderly : Orderly g) (target : Nat × String) : InOrder g target := by
  have ordered : ∀ {rows : Table SyncItem},Ascending rows → Ascending (reports target rows) := fun ascending =>
    reports_ascending (List.Pairwise.imp (fun {_ _} less => fun _ => less) ascending)
  have accepted := @reports_ascending target _ orderly.sorted
  have keyed := ascending_keyed orderly.ascending
  refine ⟨ascending_sublist accepted (ordered orderly.ascending) fun ⟨id,text⟩ member => ?_,fun settled => ?_⟩
  · obtain ⟨item,listed,mine,rfl⟩ := reports_mem.mp member
    obtain ⟨row,here,same,-⟩ := orderly.stored id item listed
    exact reports_mem.mpr ⟨row,(row_exact keyed).mpr here,same.target.trans mine,same.sent⟩
  · have done := ordered (List.Pairwise.filter (fun entry : Nat × SyncItem => decide (entry.2.status = .completed)) orderly.ascending)
    refine (ascending_sublist accepted done fun ⟨id,text⟩ member => ?_).antisymm (ascending_sublist done accepted fun ⟨id,text⟩ member => ?_)
    · obtain ⟨item,listed,mine,rfl⟩ := reports_mem.mp member
      obtain ⟨row,here,same,taken⟩ := orderly.stored id item listed
      have present := (row_exact keyed).mpr here
      have shared := same.target.trans mine
      refine reports_mem.mpr ⟨row,List.mem_filter.mpr ⟨present,?_⟩,shared,same.sent⟩
      obtain completed | failed := settled (id,row) present shared
      · simpa using completed
      · exact absurd taken (taken_not_open (.inr failed))
    · obtain ⟨row,listed,mine,rfl⟩ := reports_mem.mp member
      obtain ⟨present,completed⟩ := List.mem_filter.mp listed
      have here := (row_exact keyed).mp present
      obtain ⟨⟨key,item⟩,sent,rfl⟩ := List.mem_map.mp (orderly.completed id row here (by simpa using completed))
      obtain ⟨stored,there,same,-⟩ := orderly.stored key item sent
      cases there.symm.trans here
      exact reports_mem.mpr ⟨item,sent,same.target.symm.trans mine,same.sent.symm⟩

-- From an empty queue, in every state of every run in which the items of each order are taken up in
-- turn, what the external system has accepted is in the order of the queue.
theorem start_orderly (now : Nat) : Orderly (Board.start now) where
  ascending := List.Pairwise.nil
  below _ _ here := by cases here
  stored _ _ member := by cases member
  sorted := List.Pairwise.nil
  behind _ _ here := by cases here
  completed _ _ here := by cases here
theorem sync_in_order (env : Env) (now : Nat) {turns : List SyncTurn}
    (meets : Runs.Meets (syncBoard env).advance InTurn ⟨Board.start now,[]⟩ turns) :
    ∀ front,front <+: turns → ∀ target,InOrder ((syncBoard env).run (Board.start now) front).shared target :=
  fun _ reached target => orderly_in_order (run_holds (order_keeps env) (start_orderly now) (meets_front meets reached)).1 target

-- 'sold' fails and waits a minute; 'canceled' is enqueued and accepted meanwhile, and then the late
-- 'sold' overwrites it.
def soldFailsOnce : List SyncTurn :=
  .arrive (.enqueue (changes .sold "sold")) :: each 0 6 ++ [.step 0 (.fails "HTTP 503")] ++ each 0 4
def soldComesLate : List SyncTurn :=
  soldFailsOnce ++ [.world 1000,.arrive (.enqueue (changes .canceled "cancelled"))] ++ each 1 12 ++
    [.world 60000,.arrive (.process 20 none)] ++ each 2 10
theorem canceled_overwritten :
    reports (4,"R-11") ((syncBoard carrierEnv).run (Board.start 0) soldComesLate).shared.items = [(1,"DELIVERED"),(2,"REFUSED")] ∧
    reports (4,"R-11") ((syncBoard carrierEnv).run (Board.start 0) soldComesLate).shared.accepted = [(2,"REFUSED"),(1,"DELIVERED")] ∧
    (∀ entry ∈ ((syncBoard carrierEnv).run (Board.start 0) soldComesLate).shared.items,entry.2.status = .completed) ∧
    ¬ ["REFUSED","DELIVERED"].Sublist ["DELIVERED","REFUSED"] ∧
    ¬ InOrder ((syncBoard carrierEnv).run (Board.start 0) soldComesLate).shared (4,"R-11") := by
  have enqueued : reports (4,"R-11") ((syncBoard carrierEnv).run (Board.start 0) soldComesLate).shared.items =
      [(1,"DELIVERED"),(2,"REFUSED")] := by decide +kernel
  have accepted : reports (4,"R-11") ((syncBoard carrierEnv).run (Board.start 0) soldComesLate).shared.accepted =
      [(2,"REFUSED"),(1,"DELIVERED")] := by decide +kernel
  refine ⟨enqueued,accepted,by decide +kernel,by decide,fun inOrder => ?_⟩
  have inside := inOrder.subsequence
  rw [enqueued,accepted] at inside
  exact absurd inside (by decide)
-- When 'canceled' is enqueued after the retry of 'sold', it comes last.
def soldFirst : List SyncTurn :=
  soldFailsOnce ++ [.world 60000,.arrive (.process 20 none)] ++ each 1 10 ++
    [.world 1000,.arrive (.enqueue (changes .canceled "cancelled"))] ++ each 2 12
theorem sync_in_order_of_two : InOrder ((syncBoard carrierEnv).run (Board.start 0) soldFirst).shared (4,"R-11") :=
  sync_in_order carrierEnv 0 (by decide +kernel) soldFirst (List.prefix_refl _) (4,"R-11")
example : reports (4,"R-11") ((syncBoard carrierEnv).run (Board.start 0) soldFirst).shared.accepted = [(1,"DELIVERED"),(2,"REFUSED")] := by
  decide +kernel

end Elchi.Syncing
